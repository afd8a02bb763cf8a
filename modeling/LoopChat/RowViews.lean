import Mathlib

/-!
# A view of rows over a list

The view keeps the number of rows it read when it was last reloaded, and what each row drawn
since then shows. The list can change without a reload; a row is an index into the list when
it is drawn and again when it is chosen.
-/
namespace LoopChat.RowViews

structure View (β : Type*) where
  kept : ℕ
  drawn : ℕ → Option β

variable {ι β : Type*}

namespace View

/-- A reload reads the number of rows and forgets what was drawn. -/
def reload (count : ℕ) : View β := ⟨count, fun _ => none⟩

def draw (view : View β) (row : ℕ) (b : β) : View β :=
  { view with drawn := Function.update view.drawn row (some b) }

/-- Each row drawn shows the label of the item it is an index of. -/
def Shows (view : View β) (label : ι → β) (items : List ι) : Prop :=
  ∀ row b, view.drawn row = some b → ∃ item, items[row]? = some item ∧ label item = b

/-- Each row kept is an index of the list, and what is drawn is right. -/
def Valid (view : View β) (label : ι → β) (items : List ι) : Prop :=
  (∀ row < view.kept, row < items.length) ∧ view.Shows label items

/-- The rows kept are all the indices of the list, and what is drawn is right. -/
def InStep (view : View β) (label : ι → β) (items : List ι) : Prop :=
  view.kept = items.length ∧ view.Shows label items

/-- The rows kept are all the indices of the list, and each row drawn fits the item it is an
index of. -/
def Fits (view : View β) (R : ℕ → ι → β → Prop) (items : List ι) : Prop :=
  view.kept = items.length ∧
    ∀ row b, view.drawn row = some b → ∃ item, items[row]? = some item ∧ R row item b

variable {view : View β} {label : ι → β} {items : List ι}

theorem InStep.valid (h : view.InStep label items) : view.Valid label items :=
  ⟨fun _ hrow => hrow.trans_le h.1.le, h.2⟩

theorem reload_inStep (label : ι → β) (items : List ι) :
    (reload items.length).InStep label items :=
  ⟨rfl, fun _ _ hb => by cases hb⟩

theorem InStep.draw {row : ℕ} {item : ι} (h : view.InStep label items)
    (hitem : items[row]? = some item) : (view.draw row (label item)).InStep label items := by
  refine ⟨h.1, fun other b hb => ?_⟩
  by_cases heq : other = row
  · subst heq
    refine ⟨item, hitem, ?_⟩
    simpa [View.draw] using hb
  · exact h.2 other b (by simpa [View.draw, heq] using hb)

theorem reload_fits (R : ℕ → ι → β → Prop) (items : List ι) :
    (reload items.length).Fits R items :=
  ⟨rfl, fun _ _ hb => by cases hb⟩

theorem Fits.draw {R : ℕ → ι → β → Prop} {row : ℕ} {item : ι} {b : β} (h : view.Fits R items)
    (hitem : items[row]? = some item) (hb : R row item b) : (view.draw row b).Fits R items := by
  refine ⟨h.1, fun other b' hb' => ?_⟩
  by_cases heq : other = row
  · subst heq
    obtain rfl : b = b' := by simpa [View.draw] using hb'
    exact ⟨item, hitem, hb⟩
  · exact h.2 other b' (by simpa [View.draw, heq] using hb')

theorem Fits.mono {R S : ℕ → ι → β → Prop} (h : view.Fits R items)
    (hRS : ∀ row item b, R row item b → S row item b) : view.Fits S items := by
  refine ⟨h.1, fun row b hb => ?_⟩
  obtain ⟨item, hitem, hR⟩ := h.2 row b hb
  exact ⟨item, hitem, hRS row item b hR⟩

/-- A list that is emptied without a reload leaves the view valid only when it had no rows. -/
theorem Valid.kept_eq_zero (h : view.Valid label []) : view.kept = 0 := by
  by_contra hkept
  exact Nat.not_lt_zero 0 (h.1 0 (Nat.pos_of_ne_zero hkept))

theorem InStep.items_eq_nil (h : view.InStep label items) (hkept : view.kept = 0) : items = [] :=
  List.length_eq_zero_iff.mp (h.1.symm.trans hkept)

end View

end LoopChat.RowViews
