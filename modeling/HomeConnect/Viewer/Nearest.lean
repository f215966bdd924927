/-
# Viewer.Nearest -- the sample under the video clock

`findNearest` halves a time-sorted series until it has the last sample that is not after the
query.  The midpoint is taken with `>>`, which works on 32-bit integers: up to 2^30 samples
the sum of the two bounds fits, and the search is right (`findNearest_iff`).  In a longer
series a query late enough drives the bounds up until their sum wraps around, and the sample
that is looked at is not there.
-/
import Mathlib.Algebra.Order.Ring.Int
import Mathlib.Data.List.Sort

namespace HomeConnect.Viewer

set_option autoImplicit false

/-- How a call ends; `value none` is `null`. -/
inductive Outcome (α : Type)
  | value (s : Option α)
  | type_error
deriving DecidableEq, Repr

/-- `x >> 1`: the operand is cut to 32 bits first. -/
def half (x : Int) : Int := x.bmod (2 ^ 32) / 2

/-- `arr[i]`; outside the bounds it is `undefined`. -/
def element {α : Type} (arr : List α) (i : Int) : Option α := if 0 ≤ i then arr[i.toNat]? else none

section Search

variable {α τ : Type} [LinearOrder τ] (time : α → τ) (arr : List α) (t : τ)

/-- The `while` loop, stopped after `fuel` rounds. -/
def loop : Nat → Int → Int → Int → Option (Outcome α)
  | 0, _, _, _ => none
  | fuel + 1, lo, hi, best =>
      if lo ≤ hi then
        let mid := half (lo + hi)
        match element arr mid with
        | none => some .type_error
        | some s =>
            if time s ≤ t then loop fuel (mid + 1) hi mid
            else loop fuel lo (mid - 1) best
      else some (.value (element arr best))

def findNearest (fuel : Nat) : Option (Outcome α) :=
  if arr = [] then some (.value none) else loop time arr t fuel 0 (arr.length - 1) 0

/-- The call ends, in this way. -/
def Returns (r : Outcome α) : Prop := ∃ fuel, findNearest time arr t fuel = some r

/-- The last sample at or before `t`, or the first one if `t` precedes them all. -/
def LastAtOrBefore (s : α) : Prop :=
  ∃ i, arr[i]? = some s ∧
    ((time s ≤ t ∧ ∀ j s', i < j → arr[j]? = some s' → t < time s') ∨
      (i = 0 ∧ ∀ s' ∈ arr, t < time s'))

/-- Every query ends with the sample it asks for, and a later one with no earlier sample. -/
def Searched : Prop :=
  (∀ t, ∃ s, Returns time arr t (.value (some s)) ∧ LastAtOrBefore time arr t s) ∧
    ∀ t t' s s', t ≤ t' → Returns time arr t (.value (some s)) →
      Returns time arr t' (.value (some s')) → time s ≤ time s'

end Search

/-! ## One round -/

theorem half_of_lt {x : Int} (natural : 0 ≤ x) (small : x < 2 ^ 31) : half x = x / 2 := by
  unfold half
  rw [Int.bmod_eq_of_le (by omega) (by omega)]

theorem half_of_wrapped {x : Int} (large : 2 ^ 31 ≤ x) (small : x < 2 ^ 32) : half x < 0 := by
  unfold half
  rw [Int.bmod_def]
  omega

section Round

variable {α τ : Type} [LinearOrder τ] {time : α → τ} {arr : List α} {t : τ} {lo hi best : Int}

theorem element_nat (arr : List α) (i : Nat) : element arr i = arr[i]? := by
  unfold element
  rw [if_pos (Int.natCast_nonneg i), Int.toNat_natCast]

theorem element_of_lt (arr : List α) {i : Int} (natural : 0 ≤ i) (small : i < arr.length) :
    ∃ s, element arr i = some s ∧ arr[i.toNat]? = some s := by
  obtain ⟨k, rfl⟩ := Int.eq_ofNat_of_zero_le natural
  have inside : k < arr.length := by omega
  exact ⟨arr[k], (element_nat arr k).trans (List.getElem?_eq_getElem inside),
    List.getElem?_eq_getElem inside⟩

theorem loop_done (past : hi < lo) (fuel : Nat) :
    loop time arr t (fuel + 1) lo hi best = some (.value (element arr best)) := by
  rw [loop, if_neg (by omega)]

theorem loop_above {s : α} (fuel : Nat) (inside : lo ≤ hi) (found : element arr (half (lo + hi)) = some s)
    (early : time s ≤ t) :
    loop time arr t (fuel + 1) lo hi best =
      loop time arr t fuel (half (lo + hi) + 1) hi (half (lo + hi)) := by
  rw [loop, if_pos inside]
  simp only [found, if_pos early]

theorem loop_below {s : α} (fuel : Nat) (inside : lo ≤ hi) (found : element arr (half (lo + hi)) = some s)
    (late : t < time s) :
    loop time arr t (fuel + 1) lo hi best =
      loop time arr t fuel lo (half (lo + hi) - 1) best := by
  rw [loop, if_pos inside]
  simp only [found, if_neg (not_le.2 late)]

theorem loop_outside (fuel : Nat) (inside : lo ≤ hi) (missing : element arr (half (lo + hi)) = none) :
    loop time arr t (fuel + 1) lo hi best = some .type_error := by
  rw [loop, if_pos inside]
  simp only [missing]

/-- More rounds change nothing once the loop has ended. -/
theorem loop_more {fuel : Nat} {r : Outcome α} (ended : loop time arr t fuel lo hi best = some r)
    (more : Nat) : loop time arr t (fuel + more) lo hi best = some r := by
  induction fuel generalizing lo hi best with
  | zero => cases ended
  | succ fuel ih =>
      rw [Nat.succ_add]
      by_cases inside : lo ≤ hi
      · cases found : element arr (half (lo + hi)) with
        | none =>
            rw [loop_outside fuel inside found] at ended
            rw [loop_outside (fuel + more) inside found]
            exact ended
        | some s =>
            by_cases early : time s ≤ t
            · rw [loop_above fuel inside found early] at ended
              rw [loop_above (fuel + more) inside found early]
              exact ih ended
            · rw [loop_below fuel inside found (not_le.1 early)] at ended
              rw [loop_below (fuel + more) inside found (not_le.1 early)]
              exact ih ended
      · rw [loop_done (not_le.1 inside)] at ended ⊢
        exact ended

theorem Returns.unique {r r' : Outcome α} (ends : Returns time arr t r) (ends' : Returns time arr t r') :
    r = r' := by
  obtain ⟨fuel, ran⟩ := ends
  obtain ⟨fuel', ran'⟩ := ends'
  unfold findNearest at ran ran'
  split at ran
  case isTrue none =>
    rw [if_pos none] at ran'
    exact Option.some.inj (ran.symm.trans ran')
  case isFalse some_of_it =>
    rw [if_neg some_of_it] at ran'
    have both := loop_more ran fuel'
    rw [Nat.add_comm, loop_more ran' fuel] at both
    exact (Option.some.inj both).symm

end Round

/-! ## Up to 2^30 samples -/

section Sorted

variable {α τ : Type} [LinearOrder τ] {time : α → τ} {arr : List α} {t t' : τ} {lo hi best : Int}

theorem time_le_of_le (sorted : arr.Pairwise fun a b => time a ≤ time b) {i j : Nat} {a b : α}
    (first : arr[i]? = some a) (second : arr[j]? = some b) (order : i ≤ j) : time a ≤ time b := by
  obtain ⟨i_in, rfl⟩ := List.getElem?_eq_some_iff.1 first
  obtain ⟨j_in, rfl⟩ := List.getElem?_eq_some_iff.1 second
  rcases Nat.lt_or_eq_of_le order with less | rfl
  · exact List.pairwise_iff_getElem.1 sorted i j i_in j_in less
  · exact le_refl _

/-- What the bounds say of the samples on either side of them. -/
structure Between (time : α → τ) (arr : List α) (t : τ) (lo hi best : Int) : Prop where
  natural : 0 ≤ lo
  within : hi < arr.length
  met : lo ≤ hi + 1
  before : ∀ (j : Nat) s, (j : Int) < lo → arr[j]? = some s → time s ≤ t
  after : ∀ (j : Nat) s, hi < (j : Int) → arr[j]? = some s → t < time s
  carried : best = max (lo - 1) 0

theorem Between.init (nonempty : arr ≠ []) : Between time arr t 0 (arr.length - 1) 0 := by
  have positive := List.length_pos_iff.2 nonempty
  constructor
  · omega
  · omega
  · omega
  · intro j s below
    omega
  · intro j s above found
    obtain ⟨inside, _⟩ := List.getElem?_eq_some_iff.1 found
    omega
  · omega

/-- The loop is over. -/
theorem Between.last (between : Between time arr t lo hi best) (nonempty : arr ≠ []) (past : hi < lo) :
    ∃ s, element arr best = some s ∧ LastAtOrBefore time arr t s := by
  obtain ⟨natural, within, met, before, after, carried⟩ := between
  have positive := List.length_pos_iff.2 nonempty
  obtain ⟨s, looked, found⟩ := element_of_lt arr (i := best) (by omega) (by omega)
  refine ⟨s, looked, best.toNat, found, ?_⟩
  by_cases none : lo = 0
  · right
    refine ⟨by omega, fun s' member => ?_⟩
    obtain ⟨j, its⟩ := List.mem_iff_getElem?.1 member
    exact after j s' (by omega) its
  · left
    refine ⟨before _ s (by omega) found, fun j s' later => after j s' ?_⟩
    omega

theorem Between.loop (sorted : arr.Pairwise fun a b => time a ≤ time b) (nonempty : arr ≠ [])
    (short : arr.length ≤ 2 ^ 30) {fuel : Nat} (between : Between time arr t lo hi best)
    (enough : hi - lo + 1 < fuel) :
    ∃ s, loop time arr t fuel lo hi best = some (.value (some s)) ∧ LastAtOrBefore time arr t s := by
  induction fuel generalizing lo hi best with
  | zero =>
      have met := between.met
      omega
  | succ fuel ih =>
      by_cases inside : lo ≤ hi
      · obtain ⟨natural, within, met, before, after, carried⟩ := between
        have mid : half (lo + hi) = (lo + hi) / 2 := half_of_lt (by omega) (by omega)
        obtain ⟨s, looked, found⟩ := element_of_lt arr (i := half (lo + hi)) (by omega) (by omega)
        by_cases early : time s ≤ t
        · rw [loop_above fuel inside looked early]
          apply ih
          · constructor
            · omega
            · exact within
            · omega
            · intro j s' below its
              exact (time_le_of_le sorted its found (by omega)).trans early
            · exact after
            · omega
          · omega
        · rw [loop_below fuel inside looked (not_le.1 early)]
          apply ih
          · constructor
            · exact natural
            · omega
            · omega
            · exact before
            · intro j s' above its
              exact (not_le.1 early).trans_le (time_le_of_le sorted found its (by omega))
            · exact carried
          · omega
      · obtain ⟨s, looked, last⟩ := between.last nonempty (not_le.1 inside)
        refine ⟨s, ?_, last⟩
        rw [loop_done (not_le.1 inside), looked]

theorem returns_last (sorted : arr.Pairwise fun a b => time a ≤ time b) (nonempty : arr ≠ [])
    (short : arr.length ≤ 2 ^ 30) (t : τ) :
    ∃ s, Returns time arr t (.value (some s)) ∧ LastAtOrBefore time arr t s := by
  have enough : (arr.length - 1 : Int) - 0 + 1 < (arr.length + 1 : Nat) := by omega
  obtain ⟨s, ran, last⟩ := (Between.init nonempty).loop sorted nonempty short enough
  refine ⟨s, ⟨arr.length + 1, ?_⟩, last⟩
  unfold findNearest
  rw [if_neg nonempty, ran]

/-- A later query has no earlier sample. -/
theorem LastAtOrBefore.mono (sorted : arr.Pairwise fun a b => time a ≤ time b) {s s' : α}
    (order : t ≤ t') (last : LastAtOrBefore time arr t s) (last' : LastAtOrBefore time arr t' s') :
    time s ≤ time s' := by
  obtain ⟨i, found, here⟩ := last
  obtain ⟨i', found', here'⟩ := last'
  by_cases ordered : i ≤ i'
  · exact time_le_of_le sorted found found' ordered
  · rcases here with ⟨early, _⟩ | ⟨first, _⟩
    · have reached : time s ≤ t' := early.trans order
      rcases here' with ⟨_, later⟩ | ⟨_, later⟩
      · exact absurd reached (not_le.2 (later i s (by omega) found))
      · exact absurd reached (not_le.2 (later s (List.mem_of_getElem? found)))
    · omega

/-! ## Past 2^30 samples -/

/-- The search goes up until the sum of the bounds wraps around. -/
theorem loop_wraps (long : 2 ^ 30 < arr.length) (fits : arr.length < 2 ^ 32)
    (all : ∀ s ∈ arr, time s ≤ t) {fuel : Nat} (natural : 0 ≤ lo) (inside : lo ≤ arr.length - 1)
    (first : 2 ^ 31 < arr.length → lo = 0) (enough : arr.length - lo < fuel) :
    loop time arr t fuel lo (arr.length - 1) best = some .type_error := by
  induction fuel generalizing lo best with
  | zero => omega
  | succ fuel ih =>
      by_cases wrapped : 2 ^ 31 ≤ lo + (arr.length - 1)
      · have negative := half_of_wrapped wrapped (by omega)
        apply loop_outside fuel inside
        unfold element
        rw [if_neg (not_le.2 negative)]
      · have mid : half (lo + (arr.length - 1)) = (lo + (arr.length - 1)) / 2 :=
          half_of_lt (by omega) (by omega)
        obtain ⟨s, looked, found⟩ :=
          element_of_lt arr (i := half (lo + (arr.length - 1))) (by omega) (by omega)
        rw [loop_above fuel inside looked (all s (List.mem_of_getElem? found))]
        apply ih
        · omega
        · omega
        · omega
        · omega

theorem returns_type_error (long : 2 ^ 30 < arr.length) (fits : arr.length < 2 ^ 32)
    (all : ∀ s ∈ arr, time s ≤ t) : Returns time arr t .type_error := by
  refine ⟨arr.length + 1, ?_⟩
  unfold findNearest
  rw [if_neg (List.ne_nil_of_length_pos (by omega))]
  apply loop_wraps long fits all
  · omega
  · omega
  · intro _
    rfl
  · omega

/-- The query at the last sample's time fails. -/
theorem not_searched (sorted : arr.Pairwise fun a b => time a ≤ time b) (long : 2 ^ 30 < arr.length)
    (fits : arr.length < 2 ^ 32) : ¬ Searched time arr := by
  rintro ⟨each, _⟩
  have nonempty : arr ≠ [] := List.ne_nil_of_length_pos (by omega)
  obtain ⟨s, ends, _⟩ := each (time (arr.getLast nonempty))
  have all : ∀ s ∈ arr, time s ≤ time (arr.getLast nonempty) := by
    intro s member
    obtain ⟨i, found⟩ := List.mem_iff_getElem?.1 member
    obtain ⟨inside, _⟩ := List.getElem?_eq_some_iff.1 found
    have last : arr[arr.length - 1]? = some (arr.getLast nonempty) := by
      rw [List.getLast_eq_getElem, List.getElem?_eq_getElem]
    exact time_le_of_le sorted found last (by omega)
  cases ends.unique (returns_type_error long fits all)

end Sorted

/-! ## Every series -/

/-- In a sorted series `findNearest` is right for every query exactly when there are at most
2^30 samples. -/
theorem findNearest_iff {α τ : Type} [LinearOrder τ] {time : α → τ} {arr : List α} (nonempty : arr ≠ [])
    (sorted : arr.Pairwise fun a b => time a ≤ time b) (fits : arr.length < 2 ^ 32) :
    Searched time arr ↔ arr.length ≤ 2 ^ 30 := by
  constructor
  · intro searched
    by_contra long
    exact not_searched sorted (Nat.lt_of_not_le long) fits searched
  · intro short
    refine ⟨returns_last sorted nonempty short, fun t t' s s' order ends ends' => ?_⟩
    obtain ⟨u, returns, last⟩ := returns_last sorted nonempty short t
    obtain ⟨u', returns', last'⟩ := returns_last sorted nonempty short t'
    cases ends.unique returns
    cases ends'.unique returns'
    exact last.mono sorted order last'

/-- One sample too many. -/
theorem findNearest_not_searched :
    ¬ ∀ arr : List Nat, arr ≠ [] → (arr.Pairwise fun a b => id a ≤ id b) → arr.length < 2 ^ 32 →
      Searched id arr := by
  intro claim
  have counted : (List.replicate (2 ^ 30 + 1) 0).length = 2 ^ 30 + 1 := List.length_replicate
  have sorted : (List.replicate (2 ^ 30 + 1) 0).Pairwise fun a b => id a ≤ id b :=
    List.pairwise_replicate.2 (.inr (Nat.le_refl _))
  have long : 2 ^ 30 < (List.replicate (2 ^ 30 + 1) 0).length := by omega
  have fits : (List.replicate (2 ^ 30 + 1) 0).length < 2 ^ 32 := by omega
  exact not_searched sorted long fits (claim _ (List.ne_nil_of_length_pos (by omega)) sorted fits)

/-- With a tie the later of the two samples is found. -/
theorem findNearest_in_four :
    Searched Prod.fst [(1, 0), (3, 1), (3, 2), (7, 3)] ∧
      findNearest Prod.fst [(1, 0), (3, 1), (3, 2), (7, 3)] (5 : Nat) 4 = some (.value (some (3, (2 : Nat)))) :=
  ⟨(findNearest_iff (by decide) (by decide) (by decide)).2 (by decide), by decide⟩

end HomeConnect.Viewer
