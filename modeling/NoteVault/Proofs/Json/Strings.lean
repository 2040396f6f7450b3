import NoteVault.Json.Parser
import NoteVault.Json.Value
import NoteVault.Proofs.SelfDelimiting

/-!
# Strings in the JSON format

What is written of a character is either the character itself or an escape,
and the reader of escapes gets the character back (`escapeChar_cases`).  From
this the text of a string, and the text of a list of strings, tell where they
end, whatever stands behind them.
-/

namespace NoteVault.Json

open Text

/-- The number of the character or the unit that an escape stands for. -/
def Piece.code : Piece → Nat
  | .char c => c.toNat
  | .unit n => n

/-- The two digits of a control read back. -/
theorem hexDigitsValue?_control {n : Nat} (h : n < 32) :
    hexDigitsValue? 0 ['0', '0', hexDigit (n / 16), hexDigit (n % 16)] = some n := by
  have hall : ∀ m < 32,
      hexDigitsValue? 0 ['0', '0', hexDigit (m / 16), hexDigit (m % 16)] = some m := by decide
  exact hall n h

/-- **A character stands for itself or is escaped**, and an escape reads back,
whatever follows it. -/
theorem escapeChar_cases (c : Char) :
    (escapeChar c = [c] ∧ c ≠ '"' ∧ c ≠ '\\') ∨
      ∃ cs piece, escapeChar c = '\\' :: cs ∧ Piece.code piece = c.toNat ∧
        ∀ rest, readEscape? (cs ++ rest) = some (piece, rest) := by
  unfold escapeChar
  split
  · exact Or.inr ⟨['"'], .char '"', rfl, rfl, fun _ => rfl⟩
  · exact Or.inr ⟨['\\'], .char '\\', rfl, rfl, fun _ => rfl⟩
  · exact Or.inr ⟨['n'], .char '\n', rfl, rfl, fun _ => rfl⟩
  · exact Or.inr ⟨['r'], .char '\r', rfl, rfl, fun _ => rfl⟩
  · exact Or.inr ⟨['t'], .char '\t', rfl, rfl, fun _ => rfl⟩
  · exact Or.inr ⟨['b'], .char '\x08', rfl, rfl, fun _ => rfl⟩
  · exact Or.inr ⟨['f'], .char '\x0c', rfl, rfl, fun _ => rfl⟩
  · rename_i hquote hbackslash _ _ _ _ _
    split
    · rename_i hcontrol
      refine Or.inr ⟨_, .unit c.toNat, rfl, rfl, fun rest => ?_⟩
      show (hexDigitsValue? 0 ['0', '0', hexDigit (c.toNat / 16), hexDigit (c.toNat % 16)]).map
        (Piece.unit ·, rest) = _
      rw [hexDigitsValue?_control hcontrol]
      rfl
    · exact Or.inl ⟨rfl, hquote, hbackslash⟩

theorem selfDelimiting_escapeChar : SelfDelimiting (fun _ => True) escapeChar := by
  intro c d _ _ x y h
  rcases escapeChar_cases c with ⟨hc, _, hcb⟩ | ⟨cs, p, hc, hp, hcs⟩ <;>
    rcases escapeChar_cases d with ⟨hd, _, hdb⟩ | ⟨ds, q, hd, hq, hds⟩ <;>
      rw [hc, hd] at h
  · exact List.cons.inj h
  · exact absurd (List.cons.inj h).1 hcb
  · exact absurd (List.cons.inj h).1.symm hdb
  · have htail : cs ++ x = ds ++ y := (List.cons.inj h).2
    -- One escape, read in front of what follows either character.
    have hread : some (p, x) = some (q, y) := by
      rw [← hcs x, ← hds y, htail]
    obtain ⟨rfl, rfl⟩ := Prod.mk.inj (Option.some.inj hread)
    exact ⟨Char.toNat_inj.1 (hp.symm.trans hq), rfl⟩

/-- No escaped character begins with the quote that ends a string. -/
theorem head?_escapeChar_append (c : Char) (x : List Char) :
    (escapeChar c ++ x).head? ≠ some '"' := by
  rcases escapeChar_cases c with ⟨hc, hquote, _⟩ | ⟨cs, p, hc, _⟩
  · rw [hc]
    exact fun h => hquote (Option.some.inj h)
  · rw [hc]
    exact fun h => absurd (Option.some.inj h) (by decide)

theorem selfDelimiting_quote :
    SelfDelimiting (fun _ => True) (fun s : String => quote s.toList) := by
  intro s t _ _ x y h
  simp only [quote, List.cons_append, List.append_assoc, List.nil_append, List.cons.injEq,
    true_and] at h
  obtain ⟨hst, hxy⟩ := selfDelimiting_escapeChar.flatMap_append_inj
    (fun z => z.head? = some '"') (fun c _ z => head?_escapeChar_append c z)
    (fun _ _ => trivial) (fun _ _ => trivial) rfl rfl h
  exact ⟨String.toList_inj.1 hst, (List.cons.inj hxy).2⟩

/-- A comma stands before every text but the first. -/
theorem commaJoined_cons (t : List Char) (ts : List (List Char)) :
    commaJoined (t :: ts) = t ++ ts.flatMap (',' :: ·) := by
  induction ts generalizing t with
  | nil => rw [List.flatMap_nil, List.append_nil]; rfl
  | cons u us ih =>
    show t ++ ',' :: commaJoined (u :: us) = _
    rw [ih u, List.flatMap_cons]
    rfl

theorem stringsText_cons_append (s : String) (ss : List String) (x : List Char) :
    stringsText (s :: ss) ++ x =
      '[' :: (quote s.toList ++ (ss.flatMap (fun t => ',' :: quote t.toList) ++ ']' :: x)) := by
  rw [stringsText, List.map_cons, commaJoined_cons, List.flatMap_map]
  simp

/-- **The text of a list of strings tells where it ends**, and so determines
the list. -/
theorem selfDelimiting_stringsText : SelfDelimiting (fun _ => True) stringsText := by
  have hcomma : SelfDelimiting (fun _ => True) (fun s : String => ',' :: quote s.toList) :=
    fun _ _ hs ht _ _ h => selfDelimiting_quote hs ht (List.cons.inj h).2
  intro ss ts _ _ x y h
  cases ss with
  | nil =>
    cases ts with
    | nil => exact ⟨rfl, List.append_cancel_left h⟩
    | cons t ts =>
      rw [stringsText_cons_append] at h
      exact absurd (List.cons.inj (List.cons.inj h).2).1 (by decide)
  | cons s ss =>
    cases ts with
    | nil =>
      rw [stringsText_cons_append] at h
      exact absurd (List.cons.inj (List.cons.inj h).2).1 (by decide)
    | cons t ts =>
      rw [stringsText_cons_append, stringsText_cons_append] at h
      obtain ⟨rfl, hrest⟩ := selfDelimiting_quote trivial trivial (List.cons.inj h).2
      obtain ⟨rfl, hxy⟩ := hcomma.flatMap_append_inj
        (fun z => z.head? = some ']')
        (fun _ _ _ h => absurd (Option.some.inj h) (by decide))
        (fun _ _ => trivial) (fun _ _ => trivial) rfl rfl hrest
      exact ⟨rfl, (List.cons.inj hxy).2⟩

end NoteVault.Json
