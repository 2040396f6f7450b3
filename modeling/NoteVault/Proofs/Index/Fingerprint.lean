import Mathlib.Algebra.Group.Nat.Defs
import NoteVault.Index.Fingerprint
import NoteVault.Proofs.Json.Strings

/-!
# What a fingerprint tells

The bytes that are digested are an encoding: fields of variable length come
behind their length, an optional time behind a mark of its own, entries behind
marks that tell files from folders, and the rules that hide files behind a mark
that no entry begins with.  Paths may hold any of these marks.  Still every part
tells where it ends, so the bytes determine the *outline* of the snapshot — its
entries with their kinds, paths and times, in order — and the rules
(`bytes_eq_iff`).

The length of a field is written in eight bytes, so the paths have to be shorter
than 2⁶⁴ bytes.  The two sets of names need no such bound: their text in the
JSON format tells by itself where it ends.
-/

namespace NoteVault

/-- What a fingerprint holds of an entry: its kind, its path, and the time of a
file. -/
inductive Outline where
  | file (path : String) (modified : Option Int64)
  | folder (path : String)
  deriving DecidableEq

/-- The path of an outline. -/
def Outline.path : Outline → String
  | .file path _ => path
  | .folder path => path

/-- The outline of an entry; sizes and creation times are left out. -/
def SnapshotEntry.outline : SnapshotEntry → Outline
  | .file path stat => .file path stat.modified
  | .folder path => .folder path

@[simp] theorem SnapshotEntry.path_outline (e : SnapshotEntry) : e.outline.path = e.path := by
  cases e <;> rfl

/-- The outlines of the entries, in order. -/
def Snapshot.outline (s : Snapshot) : List Outline := s.entries.map SnapshotEntry.outline

/-- The length of each path is a 64-bit number, as that of a text in memory always
is. -/
def Snapshot.PathsFit (s : Snapshot) : Prop := ∀ e ∈ s.entries, e.path.utf8ByteSize < 2 ^ 64

namespace Fingerprint

open Json

/-! ## Fields -/

theorem length_wordBytes (n : Nat) : (wordBytes n).length = 8 := by
  simp [wordBytes]

/-- Numbers with the same low digits leave the same remainder. -/
theorem mod_pow_eq_of_digits {m n b : Nat} (k : Nat)
    (h : ∀ i, i < k → m / b ^ i % b = n / b ^ i % b) : m % b ^ k = n % b ^ k := by
  induction k with
  | zero => rw [Nat.pow_zero, Nat.mod_one, Nat.mod_one]
  | succ k ih =>
    have hlow := ih fun i hi => h i (Nat.lt_succ_of_lt hi)
    rw [Nat.mod_pow_succ, Nat.mod_pow_succ, hlow, h k (Nat.lt_succ_self k)]

theorem wordBytes_inj {m n : Nat} (hm : m < 2 ^ 64) (hn : n < 2 ^ 64)
    (h : wordBytes m = wordBytes n) : m = n := by
  -- The byte with index `i` is the digit of `256 ^ i`.
  have hdigits : ∀ i, i < 8 → m / 256 ^ i % 256 = n / 256 ^ i % 256 := by
    intro i hi
    have hbyte := congrArg UInt8.toNat (List.map_inj_left.1 h i (List.mem_range.2 hi))
    simpa [Nat.shiftRight_eq_div_pow, Nat.pow_mul] using hbyte
  have hword : (2 : Nat) ^ 64 = 256 ^ 8 := by decide
  have hmod : m % 256 ^ 8 = n % 256 ^ 8 := mod_pow_eq_of_digits 8 hdigits
  rw [hword] at hm hn
  rwa [Nat.mod_eq_of_lt hm, Nat.mod_eq_of_lt hn] at hmod

/-- Bytes behind their length tell where they end. -/
theorem selfDelimiting_field :
    SelfDelimiting (fun bytes : List UInt8 => bytes.length < 2 ^ 64) field := by
  intro a b ha hb x y h
  rw [field, field, List.append_assoc, List.append_assoc] at h
  obtain ⟨hlength, hrest⟩ := List.append_inj h (by rw [length_wordBytes, length_wordBytes])
  exact List.append_inj hrest (wordBytes_inj ha hb hlength)

/-- A time tells where it ends, and a missing time is not any time. -/
theorem selfDelimiting_timeBytes : SelfDelimiting (fun _ => True) timeBytes := by
  intro s t _ _ x y h
  cases s with
  | none =>
    cases t with
    | none => exact ⟨rfl, (List.cons.inj h).2⟩
    | some b => exact absurd (List.cons.inj h).1 (by decide)
  | some a =>
    cases t with
    | none => exact absurd (List.cons.inj h).1 (by decide)
    | some b =>
      obtain ⟨hword, hxy⟩ := List.append_inj (List.cons.inj h).2
        (by rw [length_wordBytes, length_wordBytes])
      have hnat := wordBytes_inj (UInt64.toNat_lt _) (UInt64.toNat_lt _) hword
      have hab : a = b := congrArg Int64.ofUInt64 (UInt64.toNat_inj.1 hnat)
      exact ⟨congrArg some hab, hxy⟩

/-! ## Texts -/

theorem textBytes_eq_flatMap (s : String) :
    textBytes s = s.toList.flatMap String.utf8EncodeChar := by
  rw [textBytes, String.toUTF8_eq_toByteArray, ← String.utf8Encode_toList, List.utf8Encode,
    List.toList_data_toByteArray]

theorem length_textBytes (s : String) : (textBytes s).length = s.utf8ByteSize := by
  rw [textBytes, String.toUTF8_eq_toByteArray, Array.length_toList]
  rfl

theorem textBytes_inj {s t : String} (h : textBytes s = textBytes t) : s = t := by
  rw [textBytes, textBytes, Array.toList_inj] at h
  exact String.toByteArray_inj.1 (ByteArray.ext h)

/-- The bytes of a character tell where they end. -/
theorem selfDelimiting_utf8EncodeChar :
    SelfDelimiting (fun _ => True) String.utf8EncodeChar := by
  intro c d _ _ x y h
  have hbytes : (String.utf8EncodeChar c).toByteArray ++ x.toByteArray =
      (String.utf8EncodeChar d).toByteArray ++ y.toByteArray := by
    rw [← List.toByteArray_append, ← List.toByteArray_append, h]
  have hread : some c = some d := by
    rw [← ByteArray.utf8DecodeChar?_utf8EncodeChar_append (b := x.toByteArray), hbytes,
      ByteArray.utf8DecodeChar?_utf8EncodeChar_append]
  obtain rfl := Option.some.inj hread
  exact ⟨rfl, List.append_cancel_left h⟩

/-! ## Entries -/

/-- The bytes of an entry, read off its outline. -/
def outlineBytes : Outline → List UInt8
  | .file path modified => mark 'F' :: field (textBytes path) ++ timeBytes modified
  | .folder path => mark 'D' :: field (textBytes path)

theorem entryBytes_eq (e : SnapshotEntry) : entryBytes e = outlineBytes e.outline := by
  cases e <;> rfl

theorem textField_append_inj {s t : String} (hs : s.utf8ByteSize < 2 ^ 64)
    (ht : t.utf8ByteSize < 2 ^ 64) {x y : List UInt8}
    (h : field (textBytes s) ++ x = field (textBytes t) ++ y) : s = t ∧ x = y := by
  rw [← length_textBytes] at hs ht
  obtain ⟨hbytes, hxy⟩ := selfDelimiting_field hs ht h
  exact ⟨textBytes_inj hbytes, hxy⟩

theorem selfDelimiting_outlineBytes :
    SelfDelimiting (fun o : Outline => o.path.utf8ByteSize < 2 ^ 64) outlineBytes := by
  intro a b ha hb x y h
  cases a with
  | file p m =>
    cases b with
    | file q n =>
      simp only [outlineBytes, List.cons_append, List.append_assoc, List.cons.injEq,
        true_and] at h
      obtain ⟨rfl, hrest⟩ := textField_append_inj ha hb h
      obtain ⟨rfl, hxy⟩ := selfDelimiting_timeBytes trivial trivial hrest
      exact ⟨rfl, hxy⟩
    | folder q => exact absurd (List.cons.inj h).1 (by decide)
  | folder p =>
    cases b with
    | file q n => exact absurd (List.cons.inj h).1 (by decide)
    | folder q =>
      obtain ⟨rfl, hxy⟩ := textField_append_inj ha hb (List.cons.inj h).2
      exact ⟨rfl, hxy⟩

/-- No entry begins with the mark of the rules. -/
theorem head?_outlineBytes_append (o : Outline) (x : List UInt8) :
    (outlineBytes o ++ x).head? ≠ some (mark 'X') := by
  cases o <;> exact fun h => absurd (Option.some.inj h) (by decide)

/-! ## Rules -/

theorem keys_inj {a b : NameSet} (h : a.keys = b.keys) : a = b := by
  obtain ⟨l, hl⟩ := a
  obtain ⟨m, hm⟩ := b
  have hlm : l = m := (List.map_inj_right fun _ _ he => Prod.ext he rfl).1 h
  subst hlm
  rfl

/-- The text of a set of names tells where it ends. -/
theorem selfDelimiting_setBytes : SelfDelimiting (fun _ => True) setBytes := by
  have hbytes := selfDelimiting_stringsText.comp selfDelimiting_utf8EncodeChar
  intro a b _ _ x y h
  rw [setBytes, setBytes, textBytes_eq_flatMap, textBytes_eq_flatMap, String.toList_ofList,
    String.toList_ofList] at h
  obtain ⟨hkeys, hxy⟩ := hbytes trivial trivial h
  exact ⟨keys_inj hkeys, hxy⟩

/-- So does the field of a set of names, whatever its length. -/
theorem setField_append_inj {a b : NameSet} {x y : List UInt8}
    (h : field (setBytes a) ++ x = field (setBytes b) ++ y) : a = b ∧ x = y := by
  rw [field, field, List.append_assoc, List.append_assoc] at h
  -- The length may have been cut off, so nothing is made of it.
  have hrest := (List.append_inj h (by rw [length_wordBytes, length_wordBytes])).2
  exact selfDelimiting_setBytes trivial trivial hrest

theorem exclusionBytes_inj {r r' : Exclusion} (h : exclusionBytes r = exclusionBytes r') :
    r.extensions = r'.extensions ∧ r.folders = r'.folders := by
  obtain ⟨hext, hrest⟩ := setField_append_inj (List.cons.inj h).2
  rw [← List.append_nil (field (setBytes r.folders)),
    ← List.append_nil (field (setBytes r'.folders))] at hrest
  exact ⟨hext, (setField_append_inj hrest).1⟩

/-! ## The whole -/

theorem flatMap_entryBytes (s : Snapshot) :
    s.entries.flatMap entryBytes = s.outline.flatMap outlineBytes := by
  rw [Snapshot.outline, List.flatMap_map, ← funext entryBytes_eq]

theorem path_fits_of_mem_outline {s : Snapshot} (hs : s.PathsFit) {o : Outline}
    (ho : o ∈ s.outline) : o.path.utf8ByteSize < 2 ^ 64 := by
  obtain ⟨e, he, rfl⟩ := List.mem_map.1 ho
  rw [SnapshotEntry.path_outline]
  exact hs e he

/-- The bytes determine the outline and the rules. -/
theorem eq_of_bytes_eq {s s' : Snapshot} {r r' : Exclusion} (hs : s.PathsFit)
    (hs' : s'.PathsFit) (h : bytes s r = bytes s' r') :
    s.outline = s'.outline ∧ r.extensions = r'.extensions ∧ r.folders = r'.folders := by
  rw [bytes, bytes, flatMap_entryBytes, flatMap_entryBytes] at h
  obtain ⟨houtline, hrules⟩ := selfDelimiting_outlineBytes.flatMap_append_inj
    (fun x => x.head? = some (mark 'X'))
    (fun o _ x => head?_outlineBytes_append o x) (fun _ => path_fits_of_mem_outline hs)
    (fun _ => path_fits_of_mem_outline hs') rfl rfl h
  exact ⟨houtline, exclusionBytes_inj hrules⟩

/-- Nothing else goes into them. -/
theorem bytes_congr {s s' : Snapshot} {r r' : Exclusion} (houtline : s.outline = s'.outline)
    (hext : r.extensions = r'.extensions) (hfolders : r.folders = r'.folders) :
    bytes s r = bytes s' r' := by
  rw [bytes, bytes, flatMap_entryBytes, flatMap_entryBytes, houtline, exclusionBytes,
    exclusionBytes, hext, hfolders]

/-- **The bytes that are digested are an encoding**: two snapshots under two sets
of rules give the same bytes exactly when their entries agree, one by one, in
kind, path and time, and the rules hide the same extensions and beginnings of
paths. -/
theorem bytes_eq_iff {s s' : Snapshot} {r r' : Exclusion} (hs : s.PathsFit)
    (hs' : s'.PathsFit) :
    bytes s r = bytes s' r' ↔
      s.outline = s'.outline ∧ r.extensions = r'.extensions ∧ r.folders = r'.folders :=
  ⟨eq_of_bytes_eq hs hs', fun ⟨houtline, hext, hfolders⟩ => bytes_congr houtline hext hfolders⟩

/-- A path that holds the mark of a missing time and that of a folder is not
taken for a shorter path with these marks behind it. -/
theorem bytes_ne_of_marks_in_path :
    let joined : Snapshot := { Snapshot.empty with entries := [.file "a-D" .unknown] }
    let split : Snapshot := { Snapshot.empty with entries := [.file "a" .unknown, .folder ""] }
    joined.PathsFit ∧ split.PathsFit ∧ bytes joined .none ≠ bytes split .none := by
  intro joined split
  have hjoined : joined.PathsFit := fun e he => by
    obtain rfl := List.mem_singleton.1 he
    decide
  have hsplit : split.PathsFit := fun e he => by
    rcases List.mem_cons.1 he with rfl | he
    · decide
    · obtain rfl := List.mem_singleton.1 he
      decide
  refine ⟨hjoined, hsplit, fun h => ?_⟩
  exact absurd ((bytes_eq_iff hjoined hsplit).1 h).1 (by decide)

end Fingerprint

end NoteVault
