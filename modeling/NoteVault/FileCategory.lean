/-!
The categories of files, told apart by the extensions of their names.
-/

namespace NoteVault

/-- A category of files. -/
inductive FileCategory where
  | notes
  | images
  | audio
  | video
  | canvas
  | bases
  | pdf
  | other
  deriving DecidableEq, Repr

namespace FileCategory

/-- All categories, in the order in which they are listed. -/
def all : List FileCategory := [.notes, .images, .audio, .video, .canvas, .bases, .pdf, .other]

/-- The name of a category. -/
def name : FileCategory → String
  | .notes => "notes"
  | .images => "images"
  | .audio => "audio"
  | .video => "video"
  | .canvas => "canvas"
  | .bases => "bases"
  | .pdf => "pdf"
  | .other => "other"

/-- The category of an extension in lower case. -/
def ofLowerExtension (extension : String) : FileCategory :=
  match extension with
  | "md" => .notes
  | "avif" | "bmp" | "gif" | "ico" | "jpeg" | "jpg" | "png" | "raw" | "svg" | "tif" | "tiff"
  | "webp" => .images
  | "aac" | "aif" | "aifc" | "aiff" | "flac" | "m4a" | "mp3" | "ogg" | "wav" | "webm" => .audio
  | "avi" | "mov" | "mkv" | "mp4" => .video
  | "canvas" => .canvas
  | "base" => .bases
  | "pdf" => .pdf
  | _ => .other

/-- The category of an extension; the case of ASCII letters does not count. -/
def ofExtension (extension : String) : FileCategory := ofLowerExtension extension.toLower

end FileCategory

end NoteVault
