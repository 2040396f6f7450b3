/-!
Maps from names, kept in the order of their names. Main statements: a map holds each name once and
in order, and looking up a name sees the last change of it.
-/

namespace NoteVault

namespace NameMap

/-- Changes what an ordered list of entries holds for a name; a new name goes in its place. -/
def alterList {α : Type} (name : String) (f : Option α → α) :
    List (String × α) → List (String × α)
  | [] => [(name, f none)]
  | (other, a) :: rest =>
    if name < other then (name, f none) :: (other, a) :: rest
    else if name = other then (name, f (some a)) :: rest
    else (other, a) :: alterList name f rest

theorem mem_alterList {α : Type} {name : String} {f : Option α → α} {l : List (String × α)}
    {e : String × α} (h : e ∈ alterList name f l) : e.1 = name ∨ e ∈ l := by
  induction l with
  | nil =>
    simp only [alterList, List.mem_singleton] at h
    exact .inl (by rw [h])
  | cons head rest ih =>
    obtain ⟨other, a⟩ := head
    simp only [alterList] at h
    split at h
    · rcases List.mem_cons.1 h with h | h
      · exact .inl (by rw [h])
      · exact .inr h
    · split at h
      · rcases List.mem_cons.1 h with h | h
        · exact .inl (by rw [h])
        · exact .inr (List.mem_cons_of_mem _ h)
      · rcases List.mem_cons.1 h with h | h
        · exact .inr (by rw [h]; exact List.mem_cons_self)
        · exact (ih h).imp_right (List.mem_cons_of_mem _)

theorem ordered_alterList {α : Type} (name : String) (f : Option α → α)
    {l : List (String × α)} (h : l.Pairwise (·.1 < ·.1)) :
    (alterList name f l).Pairwise (·.1 < ·.1) := by
  induction l with
  | nil => simp [alterList]
  | cons head rest ih =>
    obtain ⟨other, a⟩ := head
    have hr := List.pairwise_cons.1 h
    simp only [alterList]
    split
    · rename_i hlt
      refine List.pairwise_cons.2 ⟨fun e he => ?_, h⟩
      rcases List.mem_cons.1 he with rfl | he
      · exact hlt
      · exact String.lt_trans hlt (hr.1 e he)
    · rename_i hlt
      split
      · rename_i heq
        subst heq
        exact List.pairwise_cons.2 ⟨hr.1, hr.2⟩
      · rename_i hne
        refine List.pairwise_cons.2 ⟨fun e he => ?_, ih hr.2⟩
        rcases mem_alterList he with rfl | he
        · exact Std.lt_of_le_of_ne (String.not_lt.1 hlt) (Ne.symm hne)
        · exact hr.1 e he

theorem lookup_cons_of_ne {α : Type} {name other : String} (h : name ≠ other) (a : α)
    (l : List (String × α)) : ((other, a) :: l).lookup name = l.lookup name := by
  rw [List.lookup_cons, beq_eq_false_iff_ne.2 h]

theorem lookup_eq_none_of_lt {α : Type} {name : String} {l : List (String × α)}
    (h : ∀ e ∈ l, name < e.1) : l.lookup name = none :=
  List.lookup_eq_none_iff.2 fun e he => bne_iff_ne.2 (Std.ne_of_lt (h e he))

theorem lookup_alterList {α : Type} {name : String} (f : Option α → α) (k : String)
    {l : List (String × α)} (h : l.Pairwise (·.1 < ·.1)) :
    (alterList name f l).lookup k =
      if k = name then some (f (l.lookup name)) else l.lookup k := by
  induction l with
  | nil =>
    by_cases hk : k = name
    · rw [if_pos hk, hk, alterList, List.lookup_cons_self, List.lookup_nil]
    · rw [if_neg hk, alterList, lookup_cons_of_ne hk]
  | cons head rest ih =>
    obtain ⟨other, a⟩ := head
    have hr := List.pairwise_cons.1 h
    simp only [alterList]
    split
    · rename_i hlt
      have hnone : ((other, a) :: rest).lookup name = none := by
        refine lookup_eq_none_of_lt fun e he => ?_
        rcases List.mem_cons.1 he with rfl | he
        · exact hlt
        · exact String.lt_trans hlt (hr.1 e he)
      by_cases hk : k = name
      · rw [if_pos hk, hk, List.lookup_cons_self, hnone]
      · rw [if_neg hk, lookup_cons_of_ne hk]
    · split
      · rename_i heq
        subst heq
        by_cases hk : k = name
        · rw [if_pos hk, hk, List.lookup_cons_self, List.lookup_cons_self]
        · rw [if_neg hk, lookup_cons_of_ne hk, lookup_cons_of_ne hk]
      · rename_i hne
        by_cases hk : k = other
        · subst hk
          rw [if_neg (Ne.symm hne), List.lookup_cons_self, List.lookup_cons_self]
        · rw [lookup_cons_of_ne hk, lookup_cons_of_ne hk, lookup_cons_of_ne hne, ih hr.2]

end NameMap

/-- A map from names. -/
structure NameMap (α : Type) where
  toList : List (String × α)
  ordered : toList.Pairwise (·.1 < ·.1)

namespace NameMap

variable {α : Type}

/-- The map of no names. -/
def empty : NameMap α := ⟨[], List.Pairwise.nil⟩

instance : Inhabited (NameMap α) := ⟨empty⟩

/-- What a map holds for a name. -/
def find? (m : NameMap α) (name : String) : Option α := m.toList.lookup name

/-- Changes what a map holds for a name. -/
def alter (m : NameMap α) (name : String) (f : Option α → α) : NameMap α :=
  ⟨alterList name f m.toList, ordered_alterList name f m.ordered⟩

/-- Sets what a map holds for a name. -/
def insert (m : NameMap α) (name : String) (a : α) : NameMap α := m.alter name fun _ => a

@[simp] theorem find?_empty (name : String) : (empty : NameMap α).find? name = none := rfl

theorem find?_alter (m : NameMap α) (name : String) (f : Option α → α) (k : String) :
    (m.alter name f).find? k = if k = name then some (f (m.find? name)) else m.find? k :=
  lookup_alterList f k m.ordered

theorem find?_insert (m : NameMap α) (name : String) (a : α) (k : String) :
    (m.insert name a).find? k = if k = name then some a else m.find? k :=
  m.find?_alter name (fun _ => a) k

/-- Looking up a name gives its entry, and there is no other one. -/
theorem find?_eq_some_iff (m : NameMap α) {name : String} {a : α} :
    m.find? name = some a ↔ (name, a) ∈ m.toList := by
  rw [find?, List.lookup_eq_some_iff]
  constructor
  · rintro ⟨before, behind, hsplit, -⟩
    rw [hsplit]
    exact List.mem_append_right _ List.mem_cons_self
  · intro h
    obtain ⟨before, behind, hsplit⟩ := List.append_of_mem h
    refine ⟨before, behind, hsplit, fun e he => bne_iff_ne.2 fun hname => ?_⟩
    have hlt : e.1 < name :=
      (List.pairwise_append.1 (hsplit ▸ m.ordered)).2.2 e he (name, a) List.mem_cons_self
    rw [hname] at hlt
    exact String.lt_irrefl _ hlt

/-- The names of a map, in order. -/
def keys (m : NameMap α) : List String := m.toList.map Prod.fst

/-- The number of names. -/
def size (m : NameMap α) : Nat := m.toList.length

/-- Whether a map holds something for a name. -/
def contains (m : NameMap α) (name : String) : Bool := (m.find? name).isSome

theorem contains_insert (m : NameMap α) {name k : String} {a : α} :
    (m.insert name a).contains k = true ↔ k = name ∨ m.contains k = true := by
  rw [contains, contains, find?_insert]
  by_cases hk : k = name
  · rw [if_pos hk]
    exact iff_of_true rfl (.inl hk)
  · rw [if_neg hk]
    exact ⟨.inr, fun h => h.resolve_left hk⟩

theorem mem_keys_iff (m : NameMap α) {name : String} :
    name ∈ m.keys ↔ (m.find? name).isSome := by
  rw [keys, List.mem_map, Option.isSome_iff_exists]
  constructor
  · rintro ⟨⟨_, a⟩, hmem, rfl⟩
    exact ⟨a, m.find?_eq_some_iff.2 hmem⟩
  · rintro ⟨a, hfind⟩
    exact ⟨(name, a), m.find?_eq_some_iff.1 hfind, rfl⟩

theorem mem_keys_insert (m : NameMap α) {name k : String} {a : α} :
    k ∈ (m.insert name a).keys ↔ k = name ∨ k ∈ m.keys := by
  rw [mem_keys_iff, mem_keys_iff]
  exact m.contains_insert

/-- A map holds each name once, and the names stand in order. -/
theorem pairwise_keys (m : NameMap α) : m.keys.Pairwise (· < ·) :=
  List.pairwise_map.2 m.ordered

theorem nodup_keys (m : NameMap α) : m.keys.Nodup := m.pairwise_keys.imp Std.ne_of_lt

@[simp] theorem length_keys (m : NameMap α) : m.keys.length = m.size := List.length_map _

end NameMap

/-- A set of names. -/
abbrev NameSet := NameMap Unit

/-- The set of the names in a list. -/
def NameSet.ofList (names : List String) : NameSet :=
  names.foldl (fun s name => s.insert name ()) .empty

end NoteVault
