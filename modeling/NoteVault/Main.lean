import NoteVault.Collation.Key
import NoteVault.CommandLine.Run
import NoteVault.Vault.Archive
import Std.Time.DateTime.Timestamp

/-!
The program: runs its command line on the tree of files that standard input holds as a tape
archive. Paths start from the root of that tree.
-/

namespace NoteVault

/-- Reads a stream to its end. -/
partial def readToEnd (stream : IO.FS.Stream) (read : ByteArray) : IO ByteArray := do
  let more ← stream.read 65536
  if more.isEmpty then return read else readToEnd stream (read ++ more)

/-- The present day. -/
def presentDay : IO Calendar.Day := do
  let now ← Std.Time.Timestamp.now
  let ms := now.toMillisecondsSinceUnixEpoch.val
  return (Calendar.dayOfMillis? ms).getD Calendar.DayRange.epoch

end NoteVault

/-- Runs the command line. -/
def main (args : List String) : IO UInt32 := do
  let _ : NoteVault.Collator := NoteVault.Collation.byKeys
  let archive ← NoteVault.readToEnd (← IO.getStdin) .empty
  let environment ← IO.getEnv "OBSIDIAN_VAULT"
  let output := NoteVault.CommandLine.run (.ofArchive archive) (← NoteVault.presentDay)
    environment args
  IO.print output.stdout
  IO.eprint output.stderr
  return output.code.toUInt32
