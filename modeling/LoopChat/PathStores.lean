import Mathlib

/-!
# Trees of dictionaries and writes along a path

A value is a dictionary of values or a leaf. A write replaces what stands at its path, making
the dictionaries on the way there: it removes the leaves below its path and the leaf it finds on
the way, if there are such, and adds those of the value written.
-/
namespace LoopChat.PathStores

/-- Values some of which are dictionaries of values. -/
class Nested (κ : outParam Type*) (ν : Type*) where
  dict : List (κ × ν) → ν
  asDict : ν → Option (List (κ × ν))
  asDict_dict : ∀ entries, asDict (dict entries) = some entries

attribute [simp] Nested.asDict_dict

theorem lookup_filter_ne {κ ν : Type*} [DecidableEq κ] {entries : List (κ × ν)} {j k : κ}
    (h : j ≠ k) :
    (entries.filter fun entry => entry.1 ≠ k).lookup j = entries.lookup j := by
  induction entries with
  | nil => rfl
  | cons entry entries ih =>
    obtain ⟨i, u⟩ := entry
    by_cases hi : i = k
    · have hji : (j == i) = false := by simpa [hi] using h
      rw [List.filter_cons_of_neg (by simp [hi]), List.lookup_cons, hji]
      exact ih
    · rw [List.filter_cons_of_pos (by simp [hi]), List.lookup_cons, List.lookup_cons, ih]

open Nested

variable {κ ν : Type*} [DecidableEq κ] [Nested κ ν]

def child (v : ν) (k : κ) : Option ν := (asDict v).bind fun entries => entries.lookup k

def get : List κ → ν → Option ν
  | [], v => some v
  | k :: p, v => (child v k).bind (get p)

/-- The entry of one key replaced; what is no dictionary gives way to one. -/
def put (k : κ) (w v : ν) : ν :=
  dict ((k, w) :: ((asDict v).getD []).filter fun entry => entry.1 ≠ k)

def set : List κ → ν → ν → ν
  | [], w, _ => w
  | k :: p, w, v => put k (set p w ((child v k).getD (dict []))) v

/-- At the path stands a value that is no dictionary. -/
def Leaf (v : ν) (p : List κ) (x : ν) : Prop := get p v = some x ∧ asDict x = none

/-- No leaf stands on the way to the path, at it or below it. -/
def Fresh (p : List κ) (v : ν) : Prop := ∀ q x, Leaf v q x → ¬ p <+: q ∧ ¬ q <+: p

variable {k j : κ} {p q r : List κ} {v w x : ν}

@[simp] theorem child_put_self (k : κ) (w v : ν) : child (put k w v) k = some w := by
  simp [child, put]

theorem child_put_of_ne (h : j ≠ k) : child (put k w v) j = child v j := by
  have hjk : (j == k) = false := by simpa using h
  unfold child put
  rw [asDict_dict, Option.bind_some, List.lookup_cons, hjk]
  cases asDict v with
  | none => rfl
  | some entries => exact lookup_filter_ne h

theorem get_append (p r : List κ) (v : ν) : get (p ++ r) v = (get p v).bind (get r) := by
  induction p generalizing v with
  | nil => rfl
  | cons k p ih =>
    rw [List.cons_append, get, get]
    cases child v k with
    | none => rfl
    | some c => exact ih c

theorem get_of_leaf_append (h : Leaf v (p ++ r) x) : ∃ c, get p v = some c := by
  obtain ⟨c, hc, -⟩ := Option.bind_eq_some_iff.mp (get_append p r v ▸ h.1)
  exact ⟨c, hc⟩

@[simp] theorem get_set_self (p : List κ) (w v : ν) : get p (set p w v) = some w := by
  induction p generalizing v with
  | nil => rfl
  | cons k p ih =>
    rw [set, get, child_put_self]
    exact ih _

theorem not_leaf_nil_dict {entries : List (κ × ν)} : ¬ Leaf (dict entries : ν) [] x := by
  rintro ⟨hget, hleaf⟩
  obtain rfl := Option.some.inj hget
  simp at hleaf

theorem not_leaf_empty : ¬ Leaf (dict [] : ν) q x := by
  cases q with
  | nil => exact not_leaf_nil_dict
  | cons k q =>
    rintro ⟨hget, -⟩
    simp [get, child] at hget

theorem leaf_cons : Leaf v (k :: q) x ↔ ∃ c, child v k = some c ∧ Leaf c q x := by
  simp only [Leaf, get, Option.bind_eq_some_iff]
  constructor
  · rintro ⟨⟨c, hc, hq⟩, hx⟩
    exact ⟨c, hc, hq, hx⟩
  · rintro ⟨c, hc, hq, hx⟩
    exact ⟨⟨c, hc, hq⟩, hx⟩

/-- The leaves of the value written stand below the path. -/
theorem leaf_set_new (h : Leaf w r x) : Leaf (set p w v) (p ++ r) x :=
  ⟨by rw [get_append, get_set_self, Option.bind_some, h.1], h.2⟩

/-- Each leaf after a write was written or stood there before. -/
theorem leaf_of_set (h : Leaf (set p w v) q x) :
    (∃ r, q = p ++ r ∧ Leaf w r x) ∨ Leaf v q x := by
  induction p generalizing v q with
  | nil => exact Or.inl ⟨q, rfl, h⟩
  | cons k p ih =>
    cases q with
    | nil => exact absurd h not_leaf_nil_dict
    | cons j q =>
      obtain ⟨c, hc, hleaf⟩ := leaf_cons.mp h
      by_cases hjk : j = k
      · subst hjk
        obtain rfl : set p w ((child v j).getD (dict [])) = c := by
          simpa only [set, child_put_self, Option.some.injEq] using hc
        rcases ih hleaf with ⟨r, rfl, hr⟩ | hold
        · exact Or.inl ⟨r, rfl, hr⟩
        · cases hv : child v j with
          | none => exact absurd (by simpa [hv] using hold) not_leaf_empty
          | some d => exact Or.inr (leaf_cons.mpr ⟨d, hv, by simpa [hv] using hold⟩)
      · rw [set, child_put_of_ne hjk] at hc
        exact Or.inr (leaf_cons.mpr ⟨c, hc, hleaf⟩)

/-- A write along a fresh path removes no leaf. -/
theorem leaf_set_kept (hfresh : Fresh p v) (h : Leaf v q x) : Leaf (set p w v) q x := by
  induction p generalizing v q with
  | nil => exact absurd List.nil_prefix (hfresh q x h).1
  | cons k p ih =>
    cases q with
    | nil => exact absurd List.nil_prefix (hfresh [] x h).2
    | cons j q =>
      obtain ⟨c, hc, hleaf⟩ := leaf_cons.mp h
      by_cases hjk : j = k
      · subst hjk
        have hbelow : Fresh p c := fun q' x' h' => by
          have hno := hfresh (j :: q') x' (leaf_cons.mpr ⟨c, hc, h'⟩)
          simpa only [List.prefix_cons_inj] using hno
        refine leaf_cons.mpr ⟨set p w c, ?_, ih hbelow hleaf⟩
        rw [set, child_put_self, hc, Option.getD_some]
      · exact leaf_cons.mpr ⟨c, by rwa [set, child_put_of_ne hjk], hleaf⟩

/-- Along a fresh path a write adds its leaves and does nothing else. -/
theorem leaf_set_iff (hfresh : Fresh p v) :
    Leaf (set p w v) q x ↔ (∃ r, q = p ++ r ∧ Leaf w r x) ∨ Leaf v q x := by
  constructor
  · exact leaf_of_set
  · rintro (⟨r, rfl, hr⟩ | hold)
    · exact leaf_set_new hr
    · exact leaf_set_kept hfresh hold

/-- The writes taken one after the other. -/
def overlay (writes : List (List κ × ν)) (v : ν) : ν :=
  writes.foldl (fun v write => set write.1 write.2 v) v

theorem leaf_of_overlay {writes : List (List κ × ν)} (h : Leaf (overlay writes v) q x) :
    (∃ write ∈ writes, ∃ r, q = write.1 ++ r ∧ Leaf write.2 r x) ∨ Leaf v q x := by
  induction writes generalizing v with
  | nil => exact Or.inr h
  | cons write writes ih =>
    rcases ih h with ⟨write', hmem, hr⟩ | hset
    · exact Or.inl ⟨write', List.mem_cons_of_mem _ hmem, hr⟩
    · rcases leaf_of_set hset with hr | hold
      · exact Or.inl ⟨write, List.mem_cons_self, hr⟩
      · exact Or.inr hold

/-! ### Trees without empty branches -/

/-- Below every key stands a leaf. -/
def Full (v : ν) : Prop := ∀ k p x, get (k :: p) v = some x → ∃ r y, Leaf x r y

/-- The value is a leaf or has one, and so has everything below it. -/
def Bearing (v : ν) : Prop := ∀ p x, get p v = some x → ∃ r y, Leaf x r y

theorem Bearing.full (h : Bearing v) : Full v := fun k p => h (k :: p)

theorem Full.child (h : Full v) {c : ν} (hc : child v k = some c) : Bearing c := by
  intro p x hx
  exact h k p x (by rw [get, hc]; exact hx)

theorem full_of_children (h : ∀ k c, PathStores.child v k = some c → Bearing c) : Full v := by
  intro k p x hx
  obtain ⟨c, hc, hp⟩ := Option.bind_eq_some_iff.mp hx
  exact h k c hc p x hp

theorem Full.bearing (h : Full v) (hleaf : Leaf v q x) : Bearing v := by
  intro p y hy
  cases p with
  | nil =>
    obtain rfl := Option.some.inj hy
    exact ⟨q, x, hleaf⟩
  | cons k p => exact h k p y hy

theorem full_empty : Full (dict [] : ν) := by
  intro k p x hx
  simp [get, PathStores.child] at hx

theorem child_of_no_dict (h : asDict v = none) (k : κ) : PathStores.child v k = none := by
  simp [PathStores.child, h]

theorem leaf_nil (h : asDict v = none) : Leaf v [] v := ⟨rfl, h⟩

theorem bearing_of_no_dict (h : asDict v = none) : Bearing v :=
  (full_of_children fun k c hc => by simp [child_of_no_dict h] at hc).bearing (leaf_nil h)

/-- A dictionary of leaves that is not empty. -/
theorem bearing_dict {entries : List (κ × ν)} (hne : entries ≠ [])
    (hleaves : ∀ entry ∈ entries, asDict entry.2 = none) : Bearing (dict entries : ν) := by
  have hfull : Full (dict entries : ν) := by
    refine full_of_children fun k c hc => bearing_of_no_dict ?_
    have hlookup : entries.lookup k = some c := by simpa [PathStores.child] using hc
    obtain ⟨before, after, rfl, -⟩ := List.lookup_eq_some_iff.mp hlookup
    exact hleaves (k, c) (by simp)
  obtain ⟨⟨k, c⟩, rest, rfl⟩ := List.exists_cons_of_ne_nil hne
  have hchild : PathStores.child (dict ((k, c) :: rest) : ν) k = some c := by
    simp [PathStores.child]
  exact hfull.bearing (leaf_cons.mpr ⟨c, hchild, leaf_nil (hleaves (k, c) (by simp))⟩)

/-- A write of a value with leaves keeps a tree without empty branches. -/
theorem Full.set (hv : Full v) (hw : Bearing w) : Full (set p w v) := by
  induction p generalizing v with
  | nil => exact hw.full
  | cons k p ih =>
    obtain ⟨r, x, hleaf⟩ := hw [] w rfl
    refine full_of_children fun j c hc => ?_
    by_cases hjk : j = k
    · subst hjk
      rw [PathStores.set, child_put_self] at hc
      obtain rfl := Option.some.inj hc
      have hchild : Full ((PathStores.child v j).getD (dict [])) := by
        cases hvj : PathStores.child v j with
        | none => exact full_empty
        | some d => exact (hv.child hvj).full
      exact (ih hchild).bearing (leaf_set_new hleaf)
    · rw [PathStores.set, child_put_of_ne hjk] at hc
      exact hv.child hc

theorem Full.overlay {writes : List (List κ × ν)} (hv : Full v)
    (hwrites : ∀ write ∈ writes, Bearing write.2) : Full (overlay writes v) := by
  induction writes generalizing v with
  | nil => exact hv
  | cons write writes ih =>
    exact ih (hv.set (hwrites write List.mem_cons_self)) fun write' hmem =>
      hwrites write' (List.mem_cons_of_mem _ hmem)

end LoopChat.PathStores
