/-
# Theory.Table -- tables with a primary key

A `Table` is a list of rows no two of which share a key: the constraint is a field,
so no operation can produce a table that violates it.  The operations are the SQL
statements a program runs on one table, each as one atomic change:

* `insertIfAbsent` -- `INSERT OR IGNORE`;
* `upsert` -- `INSERT … ON CONFLICT DO UPDATE`, the conflicting row changed by `merge`;
* `update` -- `UPDATE … WHERE p`, which may not touch the key;
* `delete` -- `DELETE … WHERE p`.

Each has one lemma that says what `get?` reads afterwards.  Rows keep their
insertion order, which is the order an unordered `SELECT` lists them in.
-/
import Mathlib.Data.List.Nodup

namespace HomeConnect.Theory

set_option autoImplicit false

universe u v

/-- Rows no two of which share a key. -/
structure Table (α : Type u) {κ : Type v} (key : α → κ) where
  rows : List α
  nodup : (rows.map key).Nodup

namespace Table

variable {α : Type u} {κ : Type v} {key : α → κ}

def empty : Table α key := ⟨[], List.nodup_nil⟩

def single (a : α) : Table α key := ⟨[a], List.nodup_singleton _⟩

instance : Inhabited (Table α key) := ⟨empty⟩

@[ext] theorem ext {t t' : Table α key} (h : t.rows = t'.rows) : t = t' := by
  cases t; cases t'; cases h; rfl

theorem eq_of_key {t : Table α key} {a b : α} (ha : a ∈ t.rows) (hb : b ∈ t.rows)
    (same : key a = key b) : a = b :=
  List.inj_on_of_nodup_map t.nodup ha hb same

/-- `UPDATE … SET f WHERE p`. -/
def update (t : Table α key) (p : α → Bool) (f : α → α) (same : ∀ a, key (f a) = key a) :
    Table α key where
  rows := t.rows.map fun a => if p a then f a else a
  nodup := by
    have keys : (t.rows.map fun a => if p a then f a else a).map key = t.rows.map key := by
      rw [List.map_map]
      refine List.map_congr_left fun a _ => ?_
      by_cases h : p a <;> simp [h, same]
    rw [keys]; exact t.nodup

/-- `DELETE … WHERE p`. -/
def delete (t : Table α key) (p : α → Bool) : Table α key where
  rows := t.rows.filter fun a => !p a
  nodup := t.nodup.sublist (List.filter_sublist.map key)

@[simp] theorem mem_delete {t : Table α key} {p : α → Bool} {a : α} :
    a ∈ (t.delete p).rows ↔ a ∈ t.rows ∧ p a = false := by
  simp [delete]

theorem mem_update {t : Table α key} {p : α → Bool} {f : α → α} {same} {b : α} :
    b ∈ (t.update p f same).rows ↔ ∃ a ∈ t.rows, (if p a then f a else a) = b := by
  simp [update]

/-- An update keeps every key. -/
theorem exists_mem_update {t : Table α key} {p : α → Bool} {f : α → α}
    (same : ∀ a, key (f a) = key a) {a : α} (member : a ∈ t.rows) :
    ∃ b ∈ (t.update p f same).rows, key b = key a := by
  refine ⟨_, mem_update.2 ⟨a, member, rfl⟩, ?_⟩
  split
  · exact same a
  · rfl

/-- Changing one row by a function that `g` cannot see leaves every `g` column. -/
theorem map_update {β : Type v} (t : Table α key) (p : α → Bool) (f : α → α) (same) (g : α → β)
    (blind : ∀ a, g (f a) = g a) : (t.update p f same).rows.map g = t.rows.map g := by
  rw [update, List.map_map]
  refine List.map_congr_left fun a _ => ?_
  by_cases h : p a <;> simp [h, blind]

variable [DecidableEq κ]

/-- The row with key `k`. -/
def get? (t : Table α key) (k : κ) : Option α := t.rows.find? fun a => decide (key a = k)

theorem get?_eq_some {t : Table α key} {k : κ} {a : α} :
    t.get? k = some a ↔ a ∈ t.rows ∧ key a = k := by
  constructor
  · intro found
    exact ⟨List.mem_of_find?_eq_some found, by simpa using List.find?_some found⟩
  · rintro ⟨member, rfl⟩
    cases found : t.get? (key a) with
    | none =>
        have := List.find?_eq_none.1 found a member
        simp at this
    | some b =>
        have bKey : key b = key a := by simpa using List.find?_some found
        rw [eq_of_key (List.mem_of_find?_eq_some found) member bKey]

theorem get?_eq_none {t : Table α key} {k : κ} : t.get? k = none ↔ ∀ a ∈ t.rows, key a ≠ k := by
  simp [get?, List.find?_eq_none]

@[simp] theorem get?_empty (k : κ) : (empty : Table α key).get? k = none := rfl

theorem key_of_get? {t : Table α key} {k : κ} {a : α} (found : t.get? k = some a) : key a = k :=
  (get?_eq_some.1 found).2

/-- `INSERT OR IGNORE`. -/
def insertIfAbsent (t : Table α key) (a : α) : Table α key :=
  if absent : t.get? (key a) = none then
    { rows := t.rows ++ [a]
      nodup := by
        rw [List.map_append, List.nodup_append]
        refine ⟨t.nodup, List.nodup_singleton _, ?_⟩
        rintro k old _ new rfl
        obtain ⟨b, member, rfl⟩ := List.mem_map.1 old
        exact get?_eq_none.1 absent b member (by simpa using new) }
  else t

/-- `INSERT … ON CONFLICT DO UPDATE`: the row with `a`'s key is changed by `merge`;
without one, `a` is added. -/
def upsert (t : Table α key) (a : α) (merge : α → α) (same : ∀ b, key (merge b) = key b) :
    Table α key :=
  if t.get? (key a) = none then t.insertIfAbsent a
  else t.update (fun b => decide (key b = key a)) merge same

theorem mem_insertIfAbsent {t : Table α key} {a b : α} :
    b ∈ (t.insertIfAbsent a).rows ↔ b ∈ t.rows ∨ (b = a ∧ t.get? (key a) = none) := by
  unfold insertIfAbsent
  split
  · rename_i absent; simp [absent]
  · rename_i present; simp [present]

theorem get?_insertIfAbsent (t : Table α key) (a : α) (k : κ) :
    (t.insertIfAbsent a).get? k = if k = key a then some ((t.get? k).getD a) else t.get? k := by
  unfold insertIfAbsent
  split
  · rename_i absent
    simp only [get?, List.find?_append] at absent ⊢
    split
    · rename_i here; subst here; simp [absent]
    · rename_i elsewhere; simp [Ne.symm elsewhere]
  · rename_i present
    split
    · rename_i here
      subst here
      obtain ⟨b, found⟩ := Option.ne_none_iff_exists'.1 present
      simp [found]
    · rfl

theorem get?_update (t : Table α key) (p : α → Bool) (f : α → α) (same) (k : κ) :
    (t.update p f same).get? k = (t.get? k).map fun a => if p a then f a else a := by
  cases found : t.get? k with
  | none =>
      rw [Option.map_none, get?_eq_none]
      intro b member
      obtain ⟨a, old, rfl⟩ := mem_update.1 member
      have := get?_eq_none.1 found a old
      split <;> simpa [same] using this
  | some a =>
      obtain ⟨member, rfl⟩ := get?_eq_some.1 found
      rw [Option.map_some, get?_eq_some]
      refine ⟨mem_update.2 ⟨a, member, rfl⟩, ?_⟩
      split <;> simp [same]

theorem get?_delete (t : Table α key) (p : α → Bool) (k : κ) :
    (t.delete p).get? k = (t.get? k).filter fun a => !p a := by
  cases found : t.get? k with
  | none =>
      rw [Option.filter_none, get?_eq_none]
      exact fun a member => get?_eq_none.1 found a (mem_delete.1 member).1
  | some a =>
      obtain ⟨member, rfl⟩ := get?_eq_some.1 found
      by_cases h : p a
      · simp only [Option.filter_some, h, Bool.not_true, Bool.false_eq_true, if_false]
        rw [get?_eq_none]
        intro b kept same
        obtain ⟨old, keep⟩ := mem_delete.1 kept
        rw [eq_of_key old member same, h] at keep
        cases keep
      · simp only [Option.filter_some, h, Bool.not_false, if_true]
        exact get?_eq_some.2 ⟨mem_delete.2 ⟨member, by simpa using h⟩, rfl⟩

theorem get?_upsert (t : Table α key) (a : α) (merge : α → α) (same) (k : κ) :
    (t.upsert a merge same).get? k =
      if k = key a then some (((t.get? k).map merge).getD a) else t.get? k := by
  unfold upsert
  split
  · rename_i absent
    rw [get?_insertIfAbsent]
    split
    · rename_i here; subst here; simp [absent]
    · rfl
  · rename_i present
    rw [get?_update]
    obtain ⟨b, found⟩ := Option.ne_none_iff_exists'.1 present
    split
    · rename_i here
      subst here
      simp [found, key_of_get? found]
    · rename_i elsewhere
      cases other : t.get? k with
      | none => rfl
      | some c =>
          have : key c ≠ key a := fun e => elsewhere ((key_of_get? other).symm.trans e)
          simp [this]

/-! ## Statements that change nothing -/

theorem insertIfAbsent_present {t : Table α key} {a : α} (present : t.get? (key a) ≠ none) :
    t.insertIfAbsent a = t := by
  rw [insertIfAbsent, dif_neg present]

omit [DecidableEq κ] in
theorem update_settled {t : Table α key} {p : α → Bool} {f : α → α} (same : ∀ a, key (f a) = key a)
    (settled : ∀ a ∈ t.rows, p a = true → f a = a) : t.update p f same = t := by
  apply ext
  rw [update]
  refine (List.map_congr_left fun a member => ?_).trans (List.map_id _)
  by_cases chosen : p a = true
  · rw [if_pos chosen, settled a member chosen]
    rfl
  · rw [if_neg chosen]
    rfl

theorem upsert_settled {t : Table α key} {a b : α} {merge : α → α}
    (same : ∀ b, key (merge b) = key b) (found : t.get? (key a) = some b) (settled : merge b = b) :
    t.upsert a merge same = t := by
  rw [upsert, if_neg (by rw [found]; exact Option.some_ne_none b)]
  refine update_settled same fun c member chosen => ?_
  have here : t.get? (key a) = some c := get?_eq_some.2 ⟨member, of_decide_eq_true chosen⟩
  rw [found] at here
  cases here
  exact settled

/-! ## A table seen through a function -/

section Map

variable {β : Type u} {key' : β → κ} {t : Table α key}

/-- The rows as `g` shows them, keys included. -/
def map (t : Table α key) (g : α → β) (keys : ∀ a, key' (g a) = key a) : Table β key' where
  rows := t.rows.map g
  nodup := by
    have same : (t.rows.map g).map key' = t.rows.map key := by
      rw [List.map_map]
      exact List.map_congr_left fun a _ => keys a
    rw [same]; exact t.nodup

variable {g : α → β} (keys : ∀ a, key' (g a) = key a)

theorem get?_map (k : κ) : (t.map g keys).get? k = (t.get? k).map g := by
  rw [get?, map, List.find?_map, get?]
  congr 2
  funext a
  simp only [Function.comp, keys]

omit [DecidableEq κ] in
/-- A deletion that goes by what `g` shows. -/
theorem map_delete {p : α → Bool} {p' : β → Bool} (picks : ∀ a ∈ t.rows, p' (g a) = p a) :
    (t.delete p).map g keys = (t.map g keys).delete p' := by
  apply ext
  simp only [map, delete, List.filter_map]
  congr 1
  refine List.filter_congr fun a member => ?_
  simp only [Function.comp, picks a member]

theorem map_insertIfAbsent (a : α) :
    (t.insertIfAbsent a).map g keys = (t.map g keys).insertIfAbsent (g a) := by
  have found : (t.map g keys).get? (key' (g a)) = (t.get? (key a)).map g := by rw [keys, get?_map]
  by_cases absent : t.get? (key a) = none
  · have absent' : (t.map g keys).get? (key' (g a)) = none := by
      rw [found, absent]
      rfl
    apply ext
    rw [insertIfAbsent, dif_pos absent, insertIfAbsent, dif_pos absent']
    simp only [map, List.map_append, List.map_cons, List.map_nil]
  · have present : (t.map g keys).get? (key' (g a)) ≠ none := by
      rw [found]
      simpa using absent
    rw [insertIfAbsent, dif_neg absent, insertIfAbsent, dif_neg present]

/-- An upsert whose row and whose change `g` shows. -/
theorem map_upsert (a : α) {merge : α → α} {merge' : β → β} (same : ∀ b, key (merge b) = key b)
    (same' : ∀ b, key' (merge' b) = key' b) (made : ∀ b, g (merge b) = merge' (g b)) :
    (t.upsert a merge same).map g keys = (t.map g keys).upsert (g a) merge' same' := by
  have found : (t.map g keys).get? (key' (g a)) = none ↔ t.get? (key a) = none := by
    rw [keys, get?_map, Option.map_eq_none_iff]
  by_cases absent : t.get? (key a) = none
  · rw [upsert, if_pos absent, upsert, if_pos (found.2 absent), map_insertIfAbsent]
  · rw [upsert, if_neg absent, upsert, if_neg fun none => absent (found.1 none)]
    apply ext
    simp only [map, update, List.map_map]
    refine List.map_congr_left fun b _ => ?_
    simp only [Function.comp, keys]
    by_cases own : key b = key a
    · simp only [own, decide_true, if_true, made]
    · simp only [own, decide_false, Bool.false_eq_true, if_false]

end Map

/-! ## Tables that agree in what a function sees of their rows -/

/-- Row by row, `g` sees the same. -/
def Agree (g : α → α) (t t' : Table α key) : Prop := t.rows.map g = t'.rows.map g

variable {g : α → α} {t t' : Table α key}

omit [DecidableEq κ] in
theorem Agree.map (agree : Agree g t t') (visible : ∀ a, key (g a) = key a) :
    t.map g visible = t'.map g visible := ext agree

theorem Agree.get? (agree : Agree g t t') (visible : ∀ a, key (g a) = key a) (k : κ) :
    (t.get? k).map g = (t'.get? k).map g := by
  rw [← get?_map visible, ← get?_map visible, agree.map visible]

theorem Agree.isSome (agree : Agree g t t') (visible : ∀ a, key (g a) = key a) (k : κ) :
    (t.get? k).isSome = (t'.get? k).isSome := by
  rw [← Option.isSome_map (f := g), agree.get? visible, Option.isSome_map]

omit [DecidableEq κ] in
/-- The same update, which goes by and makes what `g` sees. -/
theorem Agree.update (agree : Agree g t t') {p : α → Bool} {f : α → α}
    (same : ∀ a, key (f a) = key a) (chosen : ∀ a, p (g a) = p a) (made : ∀ a, g (f a) = f (g a)) :
    Agree g (t.update p f same) (t'.update p f same) := by
  have through : ∀ t : Table α key, (t.update p f same).rows.map g =
      (t.rows.map g).map fun a => if p a then f a else a := by
    intro t
    rw [Table.update, List.map_map, List.map_map]
    refine List.map_congr_left fun a _ => ?_
    simp only [Function.comp, chosen]
    split
    · exact made a
    · rfl
  rw [Agree, through, through, show t.rows.map g = t'.rows.map g from agree]

theorem Agree.insertIfAbsent (agree : Agree g t t') (visible : ∀ a, key (g a) = key a) {a a' : α}
    (alike : g a = g a') : Agree g (t.insertIfAbsent a) (t'.insertIfAbsent a') := by
  have through : (t.insertIfAbsent a).map g visible = (t'.insertIfAbsent a').map g visible := by
    rw [map_insertIfAbsent, map_insertIfAbsent, agree.map visible, alike]
  exact congrArg Table.rows through

theorem Agree.upsert (agree : Agree g t t') (visible : ∀ a, key (g a) = key a) {a a' : α}
    (alike : g a = g a') {merge : α → α} (same : ∀ b, key (merge b) = key b)
    (made : ∀ b, g (merge b) = merge (g b)) :
    Agree g (t.upsert a merge same) (t'.upsert a' merge same) := by
  have through : (t.upsert a merge same).map g visible = (t'.upsert a' merge same).map g visible := by
    rw [map_upsert visible a same same made, map_upsert visible a' same same made, agree.map visible, alike]
  exact congrArg Table.rows through

end Table

end HomeConnect.Theory
