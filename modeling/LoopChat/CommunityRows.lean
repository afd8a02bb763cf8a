import LoopChat.ChatScreen
import LoopChat.CommunityListSystem
import LoopChat.RowViews

/-!
# The rows of the community list

The collection view of `CommunityVC` asks its data source for the number of rows when it is
told to reload, for a cell when a row comes into sight, and reports the row that is tapped.
`observeCommunity` reloads it after each community it appends; `viewDidAppear` empties the
array and does not.
-/
namespace LoopChat
open TransitionRuns RowViews

namespace CommunityVC

def numberOfItemsInSection (vc : CommunityVC) : ℕ := vc.arrayOfCommunities.length

/-- The text of the cell. A row that is not an index of the array stops the process. -/
def cellForItemAt (vc : CommunityVC) (row : ℕ) : Option String := do
  let item ← vc.arrayOfCommunities[row]?
  return item.communityName

/-- The chat screen that is pushed; again the row has to be an index of the array. -/
def didSelectItemAt (vc : CommunityVC) (row : ℕ) : Option ChatScreentVC := do
  let community ← vc.arrayOfCommunities[row]?
  return { community := some community }

end CommunityVC

def Call.isReloadData : Call → Bool
  | .reloadData => true
  | _ => false

namespace CommunityRows

structure World where
  screen : CommunityListSystem.World
  view : View String
  /-- An index was out of range; the process has stopped. -/
  stopped : Bool
  /-- For each tap so far, what the row showed and the chat that was pushed. -/
  opened : List (String × ChatScreentVC)

inductive Act
  | screen (act : CommunityListSystem.Act)
  /-- A row comes into sight. -/
  | cellForItemAt (row : ℕ)
  /-- A tap on a row that has been drawn. -/
  | didSelectItemAt (row : ℕ)

def initial (currentUser : Option String) : World :=
  ⟨CommunityListSystem.initial currentUser, View.reload 0, false, []⟩

/-- Whether the controller method behind the act asks for a reload. -/
def reloads (w : CommunityListSystem.World) : CommunityListSystem.Act → Bool
  | .viewDidAppear => (w.root.viewDidAppear w.currentUser).2.any Call.isReloadData
  | .childAdded o key => (w.communities.deliver o key).any fun (_, value, _) =>
      (w.root.childAdded key value).2.any Call.isReloadData
  | _ => false

/-- The list after a step; `reload` is whether the step asked for one. -/
def World.follow (w : World) (screen : CommunityListSystem.World) (reload : Bool) : World :=
  { w with
    screen := screen
    view := if reload then View.reload screen.root.numberOfItemsInSection else w.view }

def step (w : World) (a : Act) : Option World :=
  if w.stopped then none else
  match a with
  | .screen act => do
    let screen ← CommunityListSystem.step w.screen act
    return w.follow screen (reloads w.screen act)
  | .cellForItemAt row =>
    if row < w.view.kept then
      match w.screen.root.cellForItemAt row with
      | none => some { w with stopped := true }
      | some communityName => some { w with view := w.view.draw row communityName }
    else none
  | .didSelectItemAt row => do
    let shown ← w.view.drawn row
    match w.screen.root.didSelectItemAt row with
    | none => return { w with stopped := true }
    | some chat => return { w with opened := w.opened ++ [(shown, chat)] }

/-- Each row the view keeps is an index of the array and each row drawn shows the name of the
community there; no index was out of range, and each tap opened a community of the name shown. -/
structure RowsValid (w : World) : Prop where
  rows : w.view.Valid Community.communityName w.screen.root.arrayOfCommunities
  running : w.stopped = false
  taps : ∀ tap ∈ w.opened, tap.2.community.map Community.communityName = some tap.1

/-- What holds as long as the view is reloaded whenever the array changes. -/
structure Sound (w : World) : Prop where
  inStep : w.view.InStep Community.communityName w.screen.root.arrayOfCommunities
  running : w.stopped = false
  taps : ∀ tap ∈ w.opened, tap.2.community.map Community.communityName = some tap.1

/-- The list does not appear again while the view keeps rows of an earlier appearance. -/
def NoRowsKept (w : World) (a : Act) : Prop := a = .screen .viewDidAppear → w.view.kept = 0

variable {w w' : World} {a : Act} {row : ℕ}

theorem Sound.rowsValid (h : Sound w) : RowsValid w := ⟨h.inStep.valid, h.running, h.taps⟩

theorem cellForItemAt_eq_some {vc : CommunityVC} {communityName : String} :
    vc.cellForItemAt row = some communityName ↔
      ∃ item, vc.arrayOfCommunities[row]? = some item ∧ item.communityName = communityName := by
  simp [CommunityVC.cellForItemAt, Option.bind_eq_some_iff]

theorem didSelectItemAt_eq_some {vc : CommunityVC} {chat : ChatScreentVC} :
    vc.didSelectItemAt row = some chat ↔
      ∃ item, vc.arrayOfCommunities[row]? = some item ∧ { community := some item } = chat := by
  simp [CommunityVC.didSelectItemAt, Option.bind_eq_some_iff]

theorem reloads_viewDidAppear (w : CommunityListSystem.World) :
    reloads w .viewDidAppear = false := by
  cases h : w.currentUser <;>
    simp [reloads, CommunityVC.viewDidAppear, CommunityVC.presentLoginScreen,
      CommunityVC.observeCommunity, Call.isReloadData, h]

/-- Between appearances the array changes only with a reload. -/
theorem array_eq_of_not_reloads {screen screen' : CommunityListSystem.World}
    {act : CommunityListSystem.Act} (h : CommunityListSystem.step screen act = some screen')
    (ha : act ≠ .viewDidAppear) (hr : reloads screen act = false) :
    screen'.root.arrayOfCommunities = screen.root.arrayOfCommunities := by
  by_cases hd : ∃ o key, act = .childAdded o key
  · obtain ⟨o, key, rfl⟩ := hd
    obtain ⟨cb, value, feed, hf, rfl⟩ := CommunityListSystem.step_childAdded h
    have hdecode : decodeCommunity key value = none := by
      simp only [reloads, hf, Option.any_some, CommunityVC.childAdded] at hr
      cases hc : decodeCommunity key value with
      | none => rfl
      | some community => simp [hc, Call.isReloadData] at hr
    simp [CommunityVC.childAdded_array, hdecode]
  · rw [(CommunityListSystem.step_other h ha fun o key heq => hd ⟨o, key, heq⟩).1]

theorem step_screen {act : CommunityListSystem.Act} (h : step w (.screen act) = some w') :
    ∃ screen, CommunityListSystem.step w.screen act = some screen ∧
      w' = w.follow screen (reloads w.screen act) := by
  unfold step at h
  split_ifs at h
  obtain ⟨screen, hs, hw⟩ := Option.bind_eq_some_iff.mp h
  exact ⟨screen, hs, (Option.some.inj hw).symm⟩

/-- A step of the list that empties the array only under a view without rows. -/
theorem Sound.follow (h : Sound w) {act : CommunityListSystem.Act}
    {screen : CommunityListSystem.World}
    (hs : CommunityListSystem.step w.screen act = some screen)
    (ha : act = .viewDidAppear → w.view.kept = 0) :
    Sound (w.follow screen (reloads w.screen act)) := by
  refine ⟨?_, h.running, h.taps⟩
  cases hr : reloads w.screen act with
  | true => exact View.reload_inStep _ _
  | false =>
    have hsame : screen.root.arrayOfCommunities = w.screen.root.arrayOfCommunities := by
      by_cases happear : act = .viewDidAppear
      · rw [happear, CommunityListSystem.step_viewDidAppear] at hs
        obtain rfl := Option.some.inj hs
        exact (h.inStep.items_eq_nil (ha happear)).symm
      · exact array_eq_of_not_reloads hs happear hr
    have hview : w.view.InStep Community.communityName screen.root.arrayOfCommunities := by
      rw [hsame]
      exact h.inStep
    exact hview

/-- The view stays in step with the array when no appearance empties it under kept rows. -/
theorem Sound.step (h : Sound w) (hs : step w a = some w') (ha : NoRowsKept w a) : Sound w' := by
  cases a with
  | screen act =>
    obtain ⟨screen, hscreen, rfl⟩ := step_screen hs
    exact h.follow hscreen fun happear => ha (congrArg Act.screen happear)
  | cellForItemAt row =>
    have hkept : row < w.view.kept := by
      by_contra hkept
      simp [CommunityRows.step, h.running, hkept] at hs
    obtain ⟨item, hitem⟩ : ∃ item, w.screen.root.arrayOfCommunities[row]? = some item :=
      ⟨_, List.getElem?_eq_getElem (h.inStep.1 ▸ hkept)⟩
    have hcell := cellForItemAt_eq_some.mpr ⟨item, hitem, rfl⟩
    rw [CommunityRows.step, if_neg (by simp [h.running])] at hs
    simp only [hkept, hcell, if_true] at hs
    obtain rfl := Option.some.inj hs
    exact ⟨h.inStep.draw hitem, h.running, h.taps⟩
  | didSelectItemAt row =>
    rw [CommunityRows.step, if_neg (by simp [h.running])] at hs
    obtain ⟨shown, hshown, hs⟩ := Option.bind_eq_some_iff.mp hs
    obtain ⟨item, hitem, hname⟩ := h.inStep.2 row shown hshown
    rw [didSelectItemAt_eq_some.mpr ⟨item, hitem, rfl⟩] at hs
    obtain rfl := Option.some.inj hs
    refine ⟨h.inStep, h.running, fun tap htap => ?_⟩
    rcases List.mem_append.mp htap with htap | htap
    · exact h.taps tap htap
    · rw [List.mem_singleton.mp htap]
      exact congrArg some hname

/-- An appearance that leaves the rows valid had no rows to keep. -/
theorem noRowsKept_of_rowsValid (hs : step w a = some w') (h : RowsValid w') :
    NoRowsKept w a := by
  rintro rfl
  obtain ⟨screen, hscreen, rfl⟩ := step_screen hs
  rw [CommunityListSystem.step_viewDidAppear] at hscreen
  obtain rfl := Option.some.inj hscreen
  rw [reloads_viewDidAppear] at h
  exact h.rows.kept_eq_zero

theorem initial_sound (currentUser : Option String) : Sound (initial currentUser) :=
  ⟨View.reload_inStep Community.communityName [], rfl, fun _ htap => by cases htap⟩

/-- In every state passed on a run the rows are valid and open what they show, exactly when the
list never appears while the view keeps rows. -/
theorem rowsValid_iff {currentUser : Option String} {as : List Act}
    (h : Run step (initial currentUser) as w) :
    Throughout step (initial currentUser) as RowsValid ↔
      Along step (initial currentUser) NoRowsKept as := by
  have hgood : ∀ {t a u}, Sound t → step t a = some u →
      ((∀ v, step t a = some v → RowsValid v) ↔ NoRowsKept t a) := fun hI hs =>
    ⟨fun hvalid => noRowsKept_of_rowsValid hs (hvalid _ hs),
      fun hkept v hv => (hI.step hv hkept).rowsValid⟩
  rw [throughout_iff, and_iff_right (initial_sound currentUser).rowsValid]
  exact along_iff (I := Sound) h (initial_sound currentUser) hgood
    fun hI hvalid hs => hI.step hs ((hgood hI hs).mp hvalid)

/-- A community is listed and its row is drawn. -/
def listed : List Act :=
  [.screen .viewDidAppear,
    .screen (.otherClient "k" (.dict [("CommunityName", .string "Swift")])),
    .screen (.childAdded 0 "k"), .cellForItemAt 0]

theorem listed_rowsValid : Throughout step (initial (some "u")) (listed ++ [.didSelectItemAt 0])
    RowsValid := by
  obtain ⟨w, hw⟩ : ∃ w, exec step (initial (some "u")) (listed ++ [.didSelectItemAt 0]) = some w :=
    Option.isSome_iff_exists.mp rfl
  refine (rowsValid_iff (run_iff_exec.mpr hw)).mpr (Along.cons (fun _ => rfl) fun _ _ => ?_)
  refine Along.of_forall fun a ha _ => ?_
  rintro rfl
  simp at ha

/-- The list appears again: the array is empty, the row is still there, and a tap on it indexes
out of range. -/
theorem rows_not_valid : ¬ ∀ currentUser as w, Run step (initial currentUser) as w →
    Throughout step (initial currentUser) as RowsValid := by
  intro hall
  have hend : (exec step (initial (some "u"))
      (listed ++ [.screen .viewDidAppear, .didSelectItemAt 0])).map World.stopped =
      some true := rfl
  obtain ⟨w, hw, hstopped⟩ := run_of_exec_map hend
  have hvalid := hall _ _ w hw _ w (List.prefix_refl _) hw
  exact Bool.false_ne_true (hvalid.running.symm.trans hstopped)

end CommunityRows

end LoopChat
