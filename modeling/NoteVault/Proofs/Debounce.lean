import Mathlib.Data.Nat.Find
import Mathlib.Order.Monotone.Basic
import NoteVault.Debounce
import NoteVault.Proofs.Places

/-!
# When values are delivered

Equal values can be sent at several places of a run.  To tell these apart, each value is
sent along with its place (`numbered`); a debouncer does not look at values, so it treats
them alike with and without their places (`run_map`).

The state before a step is read off the steps before it (`Reached`): the clock shows the
time that they took, and what waits is the last value sent, unless it has fallen due.
Hence so is what the step delivers (`mem_delivered_iff`), and the rest is about the steps
alone: a value that waits until it falls due is one that no later value disturbs within
the window (`waits_and_fallsDue_iff`).
-/

namespace NoteVault.Debouncer

variable {α β : Type}

/-! ## Steps, places and times -/

namespace Step

/-- How far a step moves the clock. -/
def elapsed : Step α → Nat
  | .advance ms => ms
  | _ => 0

/-- The same step with another value. -/
def map (f : α → β) : Step α → Step β
  | .send value => .send (f value)
  | .advance ms => .advance ms
  | .close => .close

end Step

/-- The same steps, each value with the place at which it is sent. -/
def numbered (steps : List (Step α)) : List (Step (Nat × α)) :=
  steps.zipIdx.map fun (s, i) => s.map (i, ·)

/-- The values that are sent before the input ends. -/
def sent : List (Step α) → List α
  | [] => []
  | .send value :: steps => value :: sent steps
  | .advance _ :: steps => sent steps
  | .close :: _ => []

/-- What the clock shows before step `k`. -/
def clockAt (steps : List (Step α)) (k : Nat) : Nat :=
  (steps.take k).foldl (fun now s => now + s.elapsed) 0

/-- The input ends before step `k`. -/
def ClosedBefore (steps : List (Step α)) (k : Nat) : Prop := ∃ c < k, steps[c]? = some .close

/-- A value is sent at place `i`, and the input has not ended before. -/
structure SentAt (steps : List (Step α)) (i : Nat) (value : α) : Prop where
  step : steps[i]? = some (.send value)
  isOpen : ¬ ClosedBefore steps i

/-- Within the window behind place `i` nothing else is sent. -/
def Undisturbed (window : Nat) (steps : List (Step α)) (i : Nat) : Prop :=
  ∀ j value, i < j → SentAt steps j value → clockAt steps i + window ≤ clockAt steps j

/-- By step `k`, a value that was sent at place `i` is due: in this step the input ends, or after
it the clock is at or behind the end of the window. -/
structure FallsDue (window : Nat) (steps : List (Step α)) (i k : Nat) : Prop where
  lt : i < k
  lt_length : k < steps.length
  due : steps[k]? = some .close ∨ clockAt steps i + window ≤ clockAt steps (k + 1)

/-- Step `k` is the first one by which a value that was sent at place `i` is due. -/
def FirstDue (window : Nat) (steps : List (Step α)) (i k : Nat) : Prop :=
  FallsDue window steps i k ∧ ∀ m < k, ¬ FallsDue window steps i m

section Times

variable {steps : List (Step α)} {i j k : Nat}

theorem clockAt_succ {s : Step α} (h : steps[k]? = some s) :
    clockAt steps (k + 1) = clockAt steps k + s.elapsed := by
  rw [clockAt, clockAt, List.take_add_one, h, List.foldl_append]
  rfl

theorem clockAt_mono (steps : List (Step α)) : Monotone (clockAt steps) := by
  refine monotone_nat_of_le_succ fun k => ?_
  cases h : steps[k]? with
  | none =>
    have hlength := List.getElem?_eq_none_iff.1 h
    rw [clockAt, clockAt, List.take_of_length_le hlength,
      List.take_of_length_le (Nat.le_succ_of_le hlength)]
  | some s =>
    rw [clockAt_succ h]
    exact Nat.le_add_right _ _

theorem ClosedBefore.mono (h : ClosedBefore steps j) (hjk : j ≤ k) : ClosedBefore steps k := by
  obtain ⟨c, hc, hclose⟩ := h
  exact ⟨c, Nat.lt_of_lt_of_le hc hjk, hclose⟩

/-- Only a step that ends the input makes a difference to whether it has ended. -/
theorem closedBefore_succ {s : Step α} (h : steps[k]? = some s) :
    ClosedBefore steps (k + 1) ↔ ClosedBefore steps k ∨ s = .close := by
  constructor
  · rintro ⟨c, hc, hclose⟩
    rcases Nat.lt_succ_iff_lt_or_eq.1 hc with hlt | rfl
    · exact .inl ⟨c, hlt, hclose⟩
    · exact .inr (Option.some.inj (h.symm.trans hclose))
  · rintro (hbefore | rfl)
    · exact hbefore.mono (Nat.le_succ k)
    · exact ⟨k, Nat.lt_succ_self k, h⟩

end Times

/-! ## Single steps -/

/-- The value that waits, if there is one. -/
def waiting (d : Debouncer α) : List α := (d.pending.map Pending.value).toList

section Steps

variable {d : Debouncer α}

theorem release_of_due {p : Pending α} (h : d.pending = some p) (hdue : p.due ≤ d.now) :
    d.release = ({ d with pending := none }, [p.value]) := by
  simp [release, h, hdue]

theorem release_of_early (h : ∀ p, d.pending = some p → d.now < p.due) : d.release = (d, []) := by
  unfold release
  split
  · rename_i p hpending
    rw [if_neg (Nat.not_le.2 (h p hpending))]
  · rfl

theorem step_of_closed (h : d.closed = true) (s : Step α) :
    d.step s = ({ d with now := d.now + s.elapsed }, []) := by
  unfold step
  rw [if_pos h]
  cases s <;> rfl

theorem step_send (h : d.closed = false) (value : α) :
    d.step (.send value) = release { d with pending := some ⟨value, d.now + d.window⟩ } := by
  simp [step, h]

theorem step_advance (h : d.closed = false) (ms : Nat) :
    d.step (.advance ms) = release { d with now := d.now + ms } := by
  simp [step, h]

theorem step_close (h : d.closed = false) :
    d.step .close = ({ d with pending := none, closed := true }, d.waiting) := by
  simp [step, h, waiting]

/-- What waits is delivered or goes on waiting. -/
theorem release_waiting (d : Debouncer α) : d.release.2 ++ d.release.1.waiting = d.waiting := by
  unfold release
  split
  · rename_i p hpending
    split <;> simp [waiting, hpending]
  · rfl

theorem closed_release (d : Debouncer α) : d.release.1.closed = d.closed := by
  unfold release
  split
  · split <;> rfl
  · rfl

end Steps

/-! ## Runs -/

/-- The state before step `k` of a run. -/
def stateAt (d : Debouncer α) (steps : List (Step α)) (k : Nat) : Debouncer α :=
  (steps.take k).foldl (fun d s => (d.step s).1) d

theorem stateAt_succ {d : Debouncer α} {steps : List (Step α)} {k : Nat} {s : Step α}
    (h : steps[k]? = some s) : stateAt d steps (k + 1) = ((stateAt d steps k).step s).1 := by
  rw [stateAt, stateAt, List.take_add_one, h, List.foldl_append]
  rfl

/-- Each output of a run is that of the step taken in the state before it. -/
theorem getElem?_run (d : Debouncer α) (steps : List (Step α)) (k : Nat) :
    (run d steps)[k]? = steps[k]?.map fun s =>
      (((stateAt d steps k).step s).2, ((stateAt d steps k).step s).1.closed) := by
  induction steps generalizing d k with
  | nil => rfl
  | cons s steps ih =>
    cases k with
    | zero => rfl
    | succ k => exact ih (d.step s).1 k

theorem length_run (d : Debouncer α) (steps : List (Step α)) :
    (run d steps).length = steps.length := by
  induction steps generalizing d with
  | nil => rfl
  | cons s steps ih => exact congrArg Nat.succ (ih (d.step s).1)

/-- What several steps deliver. -/
def delivered (d : Debouncer α) (steps : List (Step α)) : List α := (run d steps).flatMap Prod.fst

theorem delivered_cons (d : Debouncer α) (s : Step α) (steps : List (Step α)) :
    d.delivered (s :: steps) = (d.step s).2 ++ (d.step s).1.delivered steps := rfl

/-- Nothing is delivered once the input has ended. -/
theorem delivered_of_closed {d : Debouncer α} (h : d.closed = true) (steps : List (Step α)) :
    d.delivered steps = [] := by
  induction steps generalizing d with
  | nil => rfl
  | cons s steps ih =>
    rw [delivered_cons, step_of_closed h]
    exact ih h

/-- Nothing is delivered but what waits and what is sent, each once and in order. -/
theorem delivered_sublist {d : Debouncer α} (h : d.closed = false) (steps : List (Step α)) :
    (d.delivered steps).Sublist (d.waiting ++ sent steps) := by
  induction steps generalizing d with
  | nil => exact List.nil_sublist _
  | cons s steps ih =>
    rw [delivered_cons]
    cases s with
    | send value =>
      -- The new value takes the place of the one that waits.
      have hnew : (d.step (.send value)).2 ++ (d.step (.send value)).1.waiting = [value] := by
        rw [step_send h]
        exact release_waiting _
      have hlater := ih (d := (d.step (.send value)).1)
        (by rw [step_send h, closed_release]; exact h)
      have hsent : ((d.step (.send value)).2 ++ (d.step (.send value)).1.delivered steps).Sublist
          ([value] ++ sent steps) := by
        rw [← hnew, List.append_assoc]
        exact hlater.append_left _
      exact hsent.trans (List.sublist_append_right d.waiting _)
    | advance ms =>
      have hnew : (d.step (.advance ms)).2 ++ (d.step (.advance ms)).1.waiting = d.waiting := by
        rw [step_advance h]
        exact release_waiting _
      have hlater := ih (d := (d.step (.advance ms)).1)
        (by rw [step_advance h, closed_release]; exact h)
      rw [← hnew, List.append_assoc]
      exact hlater.append_left _
    | close =>
      rw [step_close h, delivered_of_closed rfl, List.append_nil]
      exact List.sublist_append_left _ _

/-! ## Values with their places -/

/-- A debouncer with another value in place of the one that waits. -/
def map (f : α → β) (d : Debouncer α) : Debouncer β :=
  { d with pending := d.pending.map fun p => ⟨f p.value, p.due⟩ }

theorem release_map (f : α → β) (d : Debouncer α) :
    (d.map f).release = (d.release.1.map f, d.release.2.map f) := by
  obtain ⟨window, now, pending, closed⟩ := d
  cases pending with
  | none => rfl
  | some p =>
    by_cases hdue : p.due ≤ now
    · simp [release, map, hdue]
    · simp [release, map, hdue]

theorem step_map (f : α → β) (d : Debouncer α) (s : Step α) :
    (d.map f).step (s.map f) = ((d.step s).1.map f, (d.step s).2.map f) := by
  cases hclosed : d.closed with
  | true =>
    rw [step_of_closed hclosed, step_of_closed (d := d.map f) hclosed]
    cases s <;> rfl
  | false =>
    have hopen : (d.map f).closed = false := hclosed
    cases s with
    | send value =>
      rw [Step.map, step_send hopen, step_send hclosed]
      exact release_map f { d with pending := some ⟨value, d.now + d.window⟩ }
    | advance ms =>
      rw [Step.map, step_advance hopen, step_advance hclosed]
      exact release_map f { d with now := d.now + ms }
    | close =>
      rw [Step.map, step_close hopen, step_close hclosed]
      cases hpending : d.pending <;> simp [map, waiting, hpending]

/-- **A debouncer does not look at values.** -/
theorem run_map (f : α → β) (d : Debouncer α) (steps : List (Step α)) :
    run (d.map f) (steps.map (Step.map f)) =
      (run d steps).map fun output => (output.1.map f, output.2) := by
  induction steps generalizing d with
  | nil => rfl
  | cons s steps ih =>
    rw [List.map_cons, run, run, List.map_cons, step_map]
    exact congrArg _ (ih (d.step s).1)

theorem map_snd_numbered (steps : List (Step α)) :
    (numbered steps).map (Step.map Prod.snd) = steps := by
  have hforget : (Step.map Prod.snd ∘ fun (e : Step α × Nat) => e.1.map (e.2, ·)) = Prod.fst := by
    funext e
    obtain ⟨s, i⟩ := e
    cases s <;> rfl
  rw [numbered, List.map_map, hforget, List.zipIdx_map_fst]

theorem length_numbered (steps : List (Step α)) : (numbered steps).length = steps.length := by
  rw [numbered, List.length_map, List.length_zipIdx]

theorem getElem?_numbered (steps : List (Step α)) (k : Nat) :
    (numbered steps)[k]? = steps[k]?.map fun s => s.map (k, ·) := by
  rw [numbered, List.getElem?_map, List.getElem?_zipIdx]
  cases steps[k]? <;> simp

/-! ## The state before a step -/

/-- The value sent at place `i` waits before step `k`. -/
structure Waits (window : Nat) (steps : List (Step α)) (k i : Nat) (value : α) : Prop where
  step : steps[i]? = some (.send value)
  isOpen : ¬ ClosedBefore steps k
  lt : i < k
  latest : ∀ j v, i < j → j < k → steps[j]? ≠ some (.send v)
  early : clockAt steps k < clockAt steps i + window

section Waits

variable {window : Nat} {steps : List (Step α)} {k i : Nat} {value : α}

theorem Waits.sentAt (h : Waits window steps k i value) : SentAt steps i value :=
  ⟨h.step, fun hclosed => h.isOpen (hclosed.mono (Nat.le_of_lt h.lt))⟩

/-- After a value has been sent, it is the one that waits. -/
theorem waits_succ_of_send (hwindow : 1 ≤ window) {v : α} (hk : steps[k]? = some (.send v))
    (hopen : ¬ ClosedBefore steps k) : Waits window steps (k + 1) i value ↔ i = k ∧ value = v := by
  constructor
  · intro h
    rcases Nat.lt_succ_iff_lt_or_eq.1 h.lt with hlt | rfl
    · exact absurd hk (h.latest k v hlt (Nat.lt_succ_self k))
    · have hstep := h.step
      rw [hk] at hstep
      cases hstep
      exact ⟨rfl, rfl⟩
  · rintro ⟨rfl, rfl⟩
    refine ⟨hk, ?_, Nat.lt_succ_self i, fun j v hij hjk => by omega, ?_⟩
    · rw [closedBefore_succ hk]
      rintro (hclosed | hclose)
      · exact hopen hclosed
      · cases hclose
    · rw [clockAt_succ hk]
      show clockAt steps i + 0 < _
      omega

/-- While the clock moves, a value waits until it is due. -/
theorem waits_succ_of_advance {ms : Nat} (hk : steps[k]? = some (.advance ms)) :
    Waits window steps (k + 1) i value ↔
      Waits window steps k i value ∧ clockAt steps (k + 1) < clockAt steps i + window := by
  have hclosed : ClosedBefore steps (k + 1) ↔ ClosedBefore steps k := by
    rw [closedBefore_succ hk]
    exact ⟨fun h => h.resolve_right nofun, .inl⟩
  have hclock : clockAt steps k ≤ clockAt steps (k + 1) := clockAt_mono steps (Nat.le_succ k)
  constructor
  · intro h
    have hlt : i < k := by
      rcases Nat.lt_succ_iff_lt_or_eq.1 h.lt with hlt | rfl
      · exact hlt
      · rw [h.step] at hk
        cases hk
    refine ⟨⟨h.step, mt hclosed.2 h.isOpen, hlt, ?_, Nat.lt_of_le_of_lt hclock h.early⟩, h.early⟩
    exact fun j v hij hjk => h.latest j v hij (Nat.lt_succ_of_lt hjk)
  · rintro ⟨h, hearly⟩
    refine ⟨h.step, mt hclosed.1 h.isOpen, Nat.lt_succ_of_lt h.lt, fun j v hij hjk hj => ?_, hearly⟩
    rcases Nat.lt_succ_iff_lt_or_eq.1 hjk with hlt | rfl
    · exact h.latest j v hij hlt hj
    · rw [hk] at hj
      cases hj

end Waits

/-- **The state before step `k`**, told by the steps before it. -/
structure Reached (window : Nat) (steps : List (Step α)) (k : Nat) (d : Debouncer (Nat × α)) :
    Prop where
  window_eq : d.window = window
  now_eq : d.now = clockAt steps k
  closed_iff : d.closed = true ↔ ClosedBefore steps k
  pending_iff : ∀ p, d.pending = some p ↔
    ∃ i value, Waits window steps k i value ∧ p = ⟨(i, value), clockAt steps i + window⟩

theorem reached_start (window : Nat) (steps : List (Step α)) :
    Reached window steps 0 (start window) where
  window_eq := rfl
  now_eq := rfl
  closed_iff := ⟨nofun, fun ⟨c, hc, _⟩ => absurd hc (Nat.not_lt_zero c)⟩
  pending_iff := fun _ => ⟨nofun, fun ⟨i, _, hwaits, _⟩ => absurd hwaits.lt (Nat.not_lt_zero i)⟩

/-- **What step `k` brings about**: the state before the next step, and the delivery of a value
that waits and falls due. -/
structure Taken (window : Nat) (steps : List (Step α)) (k : Nat)
    (result : Debouncer (Nat × α) × List (Nat × α)) : Prop where
  reached : Reached window steps (k + 1) result.1
  mem_iff : ∀ i value, (i, value) ∈ result.2 ↔
    Waits window steps k i value ∧ FallsDue window steps i k

section Reached

variable {window : Nat} {steps : List (Step α)} {k : Nat} {d : Debouncer (Nat × α)}

theorem Reached.not_closedBefore (h : Reached window steps k d) (hopen : d.closed = false) :
    ¬ ClosedBefore steps k := fun hbefore => by
  rw [h.closed_iff.2 hbefore] at hopen
  cases hopen

theorem Reached.pending_of_waits (h : Reached window steps k d) {i : Nat} {value : α}
    (hwaits : Waits window steps k i value) :
    d.pending = some ⟨(i, value), clockAt steps i + window⟩ :=
  (h.pending_iff _).2 ⟨i, value, hwaits, rfl⟩

theorem Reached.mem_waiting_iff (h : Reached window steps k d) {i : Nat} {value : α} :
    (i, value) ∈ d.waiting ↔ Waits window steps k i value := by
  rw [waiting, Option.mem_toList, Option.map_eq_some_iff]
  constructor
  · rintro ⟨p, hp, hvalue⟩
    obtain ⟨j, v, hwaits, rfl⟩ := (h.pending_iff p).1 hp
    cases hvalue
    exact hwaits
  · intro hwaits
    exact ⟨_, h.pending_of_waits hwaits, rfl⟩

theorem Reached.taken_of_closed (h : Reached window steps k d) (hclosed : d.closed = true)
    {s : Step α} (hk : steps[k]? = some s) : Taken window steps k (d.step (s.map (k, ·))) := by
  have hbefore : ClosedBefore steps k := h.closed_iff.1 hclosed
  have hafter : ClosedBefore steps (k + 1) := hbefore.mono (Nat.le_succ k)
  rw [step_of_closed hclosed]
  refine ⟨⟨h.window_eq, ?_, ⟨fun _ => hafter, fun _ => hclosed⟩, fun p => ⟨?_, ?_⟩⟩,
    fun i value => ⟨nofun, fun hdue => absurd hbefore hdue.1.isOpen⟩⟩
  · rw [clockAt_succ hk, ← h.now_eq]
    cases s <;> rfl
  · intro hp
    obtain ⟨i, value, hwaits, -⟩ := (h.pending_iff p).1 hp
    exact absurd hbefore hwaits.isOpen
  · rintro ⟨i, value, hwaits, -⟩
    exact absurd hafter hwaits.isOpen

theorem Reached.taken_send (h : Reached window steps k d) (hopen : d.closed = false)
    (hwindow : 1 ≤ window) {v : α} (hk : steps[k]? = some (.send v)) :
    Taken window steps k (d.step (.send (k, v))) := by
  have hbefore := h.not_closedBefore hopen
  have hclock : clockAt steps (k + 1) = clockAt steps k := clockAt_succ hk
  have hearly : ∀ p : Pending (Nat × α), some ⟨(k, v), d.now + d.window⟩ = some p →
      d.now < p.due := by
    rintro p hp
    cases hp
    rw [h.window_eq]
    show d.now < d.now + window
    omega
  rw [step_send hopen, release_of_early hearly]
  refine ⟨⟨h.window_eq, h.now_eq.trans hclock.symm, ?_, fun p => ?_⟩, fun i value => ⟨nofun, ?_⟩⟩
  · rw [closedBefore_succ hk, ← h.closed_iff]
    exact ⟨.inl, fun hclosed => hclosed.resolve_right nofun⟩
  · simp only [waits_succ_of_send hwindow hk hbefore, h.now_eq, h.window_eq, Option.some.injEq]
    constructor
    · rintro rfl
      exact ⟨k, v, ⟨rfl, rfl⟩, rfl⟩
    · rintro ⟨i, value, ⟨rfl, rfl⟩, rfl⟩
      rfl
  · rintro ⟨hwaits, hdue⟩
    have hearlier := hwaits.early
    rcases hdue.due with hclose | hlate
    · rw [hk] at hclose
      cases hclose
    · rw [hclock] at hlate
      omega

theorem Reached.taken_advance (h : Reached window steps k d) (hopen : d.closed = false)
    {ms : Nat} (hk : steps[k]? = some (.advance ms)) :
    Taken window steps k (d.step (.advance ms)) := by
  have hlength : k < steps.length := (List.getElem?_eq_some_iff.1 hk).1
  have hnow : d.now + ms = clockAt steps (k + 1) := by
    rw [clockAt_succ hk, h.now_eq]
    rfl
  have hclosed : d.closed = true ↔ ClosedBefore steps (k + 1) := by
    rw [closedBefore_succ hk, ← h.closed_iff]
    exact ⟨.inl, fun hclosed => hclosed.resolve_right nofun⟩
  have hdue : ∀ i, FallsDue window steps i k ↔
      i < k ∧ clockAt steps i + window ≤ clockAt steps (k + 1) := by
    intro i
    constructor
    · rintro ⟨hlt, -, hclose | hlate⟩
      · rw [hk] at hclose
        cases hclose
      · exact ⟨hlt, hlate⟩
    · rintro ⟨hlt, hlate⟩
      exact ⟨hlt, hlength, .inr hlate⟩
  rw [step_advance hopen, hnow]
  by_cases hrelease : ∃ p, d.pending = some p ∧ p.due ≤ clockAt steps (k + 1)
  · obtain ⟨p, hp, hlate⟩ := hrelease
    obtain ⟨i, value, hwaits, rfl⟩ := (h.pending_iff p).1 hp
    rw [release_of_due (d := { d with now := clockAt steps (k + 1) }) hp hlate]
    refine ⟨⟨h.window_eq, rfl, hclosed, fun q => ⟨nofun, ?_⟩⟩, fun j u => ?_⟩
    · -- What would still wait is what has just been delivered.
      rintro ⟨j, u, hlater, -⟩
      rw [waits_succ_of_advance hk] at hlater
      have hsame := hp.symm.trans (h.pending_of_waits hlater.1)
      cases hsame
      exact absurd hlate (Nat.not_le.2 hlater.2)
    · rw [List.mem_singleton, hdue]
      constructor
      · intro hju
        cases hju
        exact ⟨hwaits, hwaits.lt, hlate⟩
      · rintro ⟨hlater, -, -⟩
        have hsame := hp.symm.trans (h.pending_of_waits hlater)
        cases hsame
        rfl
  · have hearly : ∀ p, d.pending = some p → clockAt steps (k + 1) < p.due :=
      fun p hp => Nat.not_le.1 fun hle => hrelease ⟨p, hp, hle⟩
    rw [release_of_early (d := { d with now := clockAt steps (k + 1) }) hearly]
    refine ⟨⟨h.window_eq, rfl, hclosed, fun p => ?_⟩, fun j u => ⟨nofun, ?_⟩⟩
    · simp only [waits_succ_of_advance hk]
      constructor
      · intro hp
        obtain ⟨i, value, hwaits, rfl⟩ := (h.pending_iff p).1 hp
        exact ⟨i, value, ⟨hwaits, hearly _ hp⟩, rfl⟩
      · rintro ⟨i, value, ⟨hwaits, -⟩, rfl⟩
        exact h.pending_of_waits hwaits
    · rintro ⟨hwaits, hlate⟩
      have hlater := hearly _ (h.pending_of_waits hwaits)
      exact absurd ((hdue j).1 hlate).2 (Nat.not_le.2 hlater)

theorem Reached.taken_close (h : Reached window steps k d) (hopen : d.closed = false)
    (hk : steps[k]? = some .close) : Taken window steps k (d.step .close) := by
  have hlength : k < steps.length := (List.getElem?_eq_some_iff.1 hk).1
  have hafter : ClosedBefore steps (k + 1) := ⟨k, Nat.lt_succ_self k, hk⟩
  rw [step_close hopen]
  refine ⟨⟨h.window_eq, ?_, ⟨fun _ => hafter, fun _ => rfl⟩, fun p => ⟨nofun, ?_⟩⟩,
    fun i value => ?_⟩
  · exact h.now_eq.trans (clockAt_succ hk).symm
  · rintro ⟨i, value, hwaits, -⟩
    exact absurd hafter hwaits.isOpen
  · rw [h.mem_waiting_iff]
    exact ⟨fun hwaits => ⟨hwaits, hwaits.lt, hlength, .inl hk⟩, And.left⟩

/-- Each step of a run keeps the state that is told by the steps. -/
theorem Reached.taken (h : Reached window steps k d) (hwindow : 1 ≤ window) {s : Step α}
    (hk : steps[k]? = some s) : Taken window steps k (d.step (s.map (k, ·))) := by
  cases hclosed : d.closed with
  | true => exact h.taken_of_closed hclosed hk
  | false =>
    cases s with
    | send v => exact h.taken_send hclosed hwindow hk
    | advance ms => exact h.taken_advance hclosed hk
    | close => exact h.taken_close hclosed hk

theorem reached_stateAt (hwindow : 1 ≤ window) (hk : k ≤ steps.length) :
    Reached window steps k (stateAt (start window) (numbered steps) k) := by
  induction k with
  | zero => exact reached_start window steps
  | succ k ih =>
    have hstep : steps[k]? = some steps[k] := List.getElem?_eq_getElem hk
    have hnumbered : (numbered steps)[k]? = some (steps[k].map (k, ·)) := by
      rw [getElem?_numbered, hstep]
      rfl
    rw [stateAt_succ hnumbered]
    exact ((ih (Nat.le_of_lt hk)).taken hwindow hstep).reached

end Reached

/-! ## The schedule -/

section Schedule

variable {window : Nat} {steps : List (Step α)} {k i : Nat} {value : α}

/-- **When a value waits until it falls due**, told without what happens in between: nothing
else is sent within the window, and it has not been due before. -/
theorem waits_and_fallsDue_iff (hwindow : 1 ≤ window) (hsent : SentAt steps i value) :
    Waits window steps k i value ∧ FallsDue window steps i k ↔
      Undisturbed window steps i ∧ FirstDue window steps i k := by
  constructor
  · rintro ⟨hwaits, hdue⟩
    refine ⟨fun j v hij hj => ?_, hdue, fun m hm hearlier => ?_⟩
    · rcases Nat.lt_trichotomy j k with hlt | rfl | hgt
      · exact absurd hj.step (hwaits.latest j v hij hlt)
      · rcases hdue.due with hclose | hlate
        · rw [hj.step] at hclose
          cases hclose
        · rw [clockAt_succ hj.step] at hlate
          exact hlate
      · rcases hdue.due with hclose | hlate
        · exact absurd ⟨k, hgt, hclose⟩ hj.isOpen
        · exact Nat.le_trans hlate (clockAt_mono steps hgt)
    · rcases hearlier.due with hclose | hlate
      · exact hwaits.isOpen ⟨m, hm, hclose⟩
      · have hclock : clockAt steps (m + 1) ≤ clockAt steps k := clockAt_mono steps hm
        have hearly := hwaits.early
        omega
  · rintro ⟨hquiet, hdue, hfirst⟩
    -- The end of the window is ahead up to step `k`: before it, nothing made the value due.
    have hearly : ∀ m, i < m → m ≤ k → clockAt steps m < clockAt steps i + window := by
      intro m him hmk
      rcases Nat.lt_or_eq_of_le (Nat.succ_le_of_lt him) with hlt | rfl
      · obtain ⟨n, rfl⟩ := Nat.exists_eq_add_of_lt hlt
        have hnot := hfirst (i + 1 + n) (by omega)
        refine Nat.not_le.1 fun hle => hnot ⟨by omega, ?_, .inr hle⟩
        exact Nat.lt_of_lt_of_le (by omega) (Nat.le_of_lt hdue.lt_length)
      · rw [clockAt_succ hsent.step]
        show clockAt steps i + 0 < _
        omega
    have hopen : ¬ ClosedBefore steps k := by
      rintro ⟨c, hck, hclose⟩
      rcases Nat.lt_trichotomy c i with hlt | rfl | hgt
      · exact hsent.isOpen ⟨c, hlt, hclose⟩
      · rw [hsent.step] at hclose
        cases hclose
      · exact hfirst c hck ⟨hgt, Nat.lt_trans hck hdue.lt_length, .inl hclose⟩
    refine ⟨⟨hsent.step, hopen, hdue.lt, fun j v hij hjk hj => ?_, hearly k hdue.lt (le_refl k)⟩,
      hdue⟩
    have hlater := hquiet j v hij ⟨hj, fun hclosed => hopen (hclosed.mono (Nat.le_of_lt hjk))⟩
    exact absurd hlater (Nat.not_le.2 (hearly j hij (Nat.le_of_lt hjk)))

/-- What is due is due by a first step. -/
theorem exists_firstDue (h : ∃ k, FallsDue window steps i k) : ∃ k, FirstDue window steps i k := by
  classical
  exact ⟨Nat.find h, Nat.find_spec h, fun m hm => Nat.find_min h hm⟩

end Schedule

theorem places_sent_sublist (entries : List (Step α × Nat)) :
    ((sent (entries.map fun (s, i) => s.map (i, ·))).map Prod.fst).Sublist
      (entries.map Prod.snd) := by
  induction entries with
  | nil => exact List.nil_sublist _
  | cons entry entries ih =>
    obtain ⟨s, i⟩ := entry
    cases s with
    | send value => exact ih.cons_cons i
    | advance ms => exact ih.cons i
    | close => exact List.nil_sublist _

/-- The places at which values are sent go up. -/
theorem pairwise_sent_numbered (steps : List (Step α)) :
    ((sent (numbered steps)).map Prod.fst).Pairwise (· < ·) :=
  (List.pairwise_map.2 (pairwise_zipIdx steps 0)).sublist (places_sent_sublist steps.zipIdx)

/-- **Outputs on schedule.**  For each step, `outputs` holds the values that it delivers,
each with the place at which it was sent, and whether the output has ended. -/
structure OnSchedule (window : Nat) (steps : List (Step α))
    (outputs : List (List (Nat × α) × Bool)) : Prop where
  length_eq : outputs.length = steps.length
  /-- Values are delivered in the order in which they were sent. -/
  sublist : (outputs.flatMap Prod.fst).Sublist (sent (numbered steps))
  /-- No value is delivered twice. -/
  places : ((outputs.flatMap Prod.fst).map Prod.fst).Pairwise (· < ·)
  /-- Nothing is delivered but what was sent while the input was open. -/
  sentAt : ∀ i value, (i, value) ∈ outputs.flatMap Prod.fst → SentAt steps i value
  /-- A value is delivered where nothing else is sent within the window, and the clock reaches the
  end of the window or the input ends. -/
  delivered_iff : ∀ i value, SentAt steps i value →
    ((i, value) ∈ outputs.flatMap Prod.fst ↔
      Undisturbed window steps i ∧ ∃ k, FallsDue window steps i k)
  /-- It is delivered in the first step by which one of these has happened. -/
  delivered_in_iff : ∀ i value, SentAt steps i value → ∀ k output, outputs[k]? = some output →
    ((i, value) ∈ output.1 ↔ Undisturbed window steps i ∧ FirstDue window steps i k)
  /-- The output ends with the input. -/
  ended_iff : ∀ k output, outputs[k]? = some output →
    (output.2 = true ↔ ClosedBefore steps (k + 1))
  /-- Nothing is delivered behind the end of the input. -/
  nothing_behind : ∀ k output, outputs[k]? = some output → ClosedBefore steps k → output.1 = []
  /-- The last value before the end of the input is not lost. -/
  last_delivered : ∀ i value, SentAt steps i value → (∀ j v, i < j → ¬ SentAt steps j v) →
    ClosedBefore steps steps.length → (i, value) ∈ outputs.flatMap Prod.fst

/-- What step `k` delivers of what was sent, and whether the output has ended after it. -/
theorem output_of_run {window : Nat} (hwindow : 1 ≤ window) {steps : List (Step α)} {k : Nat}
    {output : List (Nat × α) × Bool}
    (hk : (run (start window) (numbered steps))[k]? = some output) :
    (∀ i value, (i, value) ∈ output.1 ↔
        Waits window steps k i value ∧ FallsDue window steps i k) ∧
      (output.2 = true ↔ ClosedBefore steps (k + 1)) := by
  rw [getElem?_run, getElem?_numbered, Option.map_map, Option.map_eq_some_iff] at hk
  obtain ⟨s, hs, rfl⟩ := hk
  have hlength : k < steps.length := (List.getElem?_eq_some_iff.1 hs).1
  have htaken := (reached_stateAt hwindow (Nat.le_of_lt hlength)).taken hwindow hs
  exact ⟨htaken.mem_iff, htaken.reached.closed_iff⟩

/-- **What a run delivers**: the values that wait until they fall due. -/
theorem mem_delivered_iff {window : Nat} (hwindow : 1 ≤ window) {steps : List (Step α)} {i : Nat}
    {value : α} :
    (i, value) ∈ (start window).delivered (numbered steps) ↔
      ∃ k, Waits window steps k i value ∧ FallsDue window steps i k := by
  rw [delivered, List.mem_flatMap]
  constructor
  · rintro ⟨output, houtput, hmem⟩
    obtain ⟨k, hk⟩ := List.mem_iff_getElem?.1 houtput
    exact ⟨k, ((output_of_run hwindow hk).1 i value).1 hmem⟩
  · rintro ⟨k, hwaits, hdue⟩
    have hlt : k < (run (start window) (numbered steps)).length := by
      rw [length_run, length_numbered]
      exact hdue.lt_length
    have hk := List.getElem?_eq_getElem hlt
    exact ⟨_, List.mem_of_getElem? hk, ((output_of_run hwindow hk).1 i value).2 ⟨hwaits, hdue⟩⟩

theorem mem_delivered_iff_undisturbed {window : Nat} (hwindow : 1 ≤ window)
    {steps : List (Step α)} {i : Nat} {value : α} (hsent : SentAt steps i value) :
    (i, value) ∈ (start window).delivered (numbered steps) ↔
      Undisturbed window steps i ∧ ∃ k, FallsDue window steps i k := by
  rw [mem_delivered_iff hwindow]
  constructor
  · rintro ⟨k, hk⟩
    exact ⟨((waits_and_fallsDue_iff hwindow hsent).1 hk).1, k, hk.2⟩
  · rintro ⟨hquiet, hdue⟩
    obtain ⟨k, hfirst⟩ := exists_firstDue hdue
    exact ⟨k, (waits_and_fallsDue_iff hwindow hsent).2 ⟨hquiet, hfirst⟩⟩

/-- The end of the input makes due whatever was sent before. -/
theorem SentAt.fallsDue_of_close (window : Nat) {steps : List (Step α)} {i c : Nat} {value : α}
    (hsent : SentAt steps i value) (hclose : steps[c]? = some .close) :
    FallsDue window steps i c := by
  refine ⟨?_, (List.getElem?_eq_some_iff.1 hclose).1, .inl hclose⟩
  rcases Nat.lt_trichotomy c i with hlt | rfl | hgt
  · exact absurd ⟨c, hlt, hclose⟩ hsent.isOpen
  · rw [hsent.step] at hclose
    cases hclose
  · exact hgt

/-- **A debouncer keeps its schedule**, whatever is sent, however the clock moves, and
whether or not the input ends. -/
theorem run_onSchedule {window : Nat} (hwindow : 1 ≤ window) (steps : List (Step α)) :
    run (start window) steps =
        (run (start window) (numbered steps)).map
          (fun output => (output.1.map Prod.snd, output.2)) ∧
      OnSchedule window steps (run (start window) (numbered steps)) := by
  have hsublist : ((start window).delivered (numbered steps)).Sublist (sent (numbered steps)) :=
    delivered_sublist (d := start window) rfl (numbered steps)
  refine ⟨?_, ?_, hsublist, ?_, ?_, ?_, ?_, ?_, ?_, ?_⟩
  · have hmap := run_map Prod.snd (start (α := Nat × α) window) (numbered steps)
    rwa [map_snd_numbered] at hmap
  · rw [length_run, length_numbered]
  · exact (pairwise_sent_numbered steps).sublist (hsublist.map Prod.fst)
  · intro i value hmem
    obtain ⟨k, hwaits, -⟩ := (mem_delivered_iff hwindow).1 hmem
    exact hwaits.sentAt
  · exact fun i value hsent => mem_delivered_iff_undisturbed hwindow hsent
  · intro i value hsent k output hk
    rw [(output_of_run hwindow hk).1 i value]
    exact waits_and_fallsDue_iff hwindow hsent
  · exact fun k output hk => (output_of_run hwindow hk).2
  · intro k output hk hclosed
    refine List.eq_nil_iff_forall_not_mem.2 fun entry hentry => ?_
    exact (((output_of_run hwindow hk).1 entry.1 entry.2).1 hentry).1.isOpen hclosed
  · rintro i value hsent hlast ⟨c, -, hclose⟩
    have hquiet : Undisturbed window steps i := fun j v hij hj => absurd hj (hlast j v hij)
    exact (mem_delivered_iff_undisturbed hwindow hsent).2
      ⟨hquiet, c, hsent.fallsDue_of_close window hclose⟩

/-- Of a burst the last value is delivered, when the window has passed; the end of the input
delivers what waits then, and nothing comes behind it. -/
theorem run_onSchedule_burst :
    let steps : List (Step String) :=
      [.send "p", .advance 100, .send "pr", .advance 299, .advance 1, .send "pr", .close,
        .advance 300]
    1 ≤ 300 ∧ OnSchedule 300 steps (run (start 300) (numbered steps)) ∧
      run (start 300) steps =
        [([], false), ([], false), ([], false), ([], false), (["pr"], false), ([], false),
          (["pr"], true), ([], true)] := by
  intro steps
  have hwindow : 1 ≤ 300 := by decide
  exact ⟨hwindow, (run_onSchedule hwindow steps).2, by decide +kernel⟩

end NoteVault.Debouncer
