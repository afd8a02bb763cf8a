import LoopChat.CellPools
import LoopChat.DeviceWindow
import LoopChat.TransitionRuns

/-!
# The two cells of the login screen

Row 0 of the collection view of `SignupAndLoginVC` is the log-in form and row 1 the sign-up form,
both drawn into cells of one kind. A button keeps the actions it was ever given, a text field
stays hidden until it is shown again, and the actions look their form up by its row: all of this
goes wrong in a cell that was the other form before.
-/
namespace LoopChat
open TransitionRuns CellPools

/-- The `@objc` actions of `SignupAndLoginVC`. -/
inductive Selector
  | loginButtonAction
  | signupButtonAction
  | slideToLogInCell
  | slideToSignUpCell
  deriving DecidableEq, Repr

/-- A cell, at first as the storyboard has it. -/
structure UserCVCell where
  statusLabel : String := "Already have an account ?"
  userName : String := ""
  email : String := ""
  password : String := ""
  confirmPassword : String := ""
  userNameIsHidden : Bool := false
  emailIsHidden : Bool := false
  confirmPasswordIsHidden : Bool := false
  actionTitle : String := "Ready To Go.."
  slideTitle : String := "Sign in"
  actionTargets : List Selector := []
  slideTargets : List Selector := []
  cornerRadius : ℕ := 0
  deriving DecidableEq, Repr

/-- The text fields of a cell. -/
inductive UserField
  | userName
  | email
  | password
  | confirmPassword
  deriving DecidableEq, Repr

namespace UserCVCell

def isHidden (cell : UserCVCell) : UserField → Bool
  | .userName => cell.userNameIsHidden
  | .email => cell.emailIsHidden
  | .password => false
  | .confirmPassword => cell.confirmPasswordIsHidden

def setText (cell : UserCVCell) (text : String) : UserField → UserCVCell
  | .userName => { cell with userName := text }
  | .email => { cell with email := text }
  | .password => { cell with password := text }
  | .confirmPassword => { cell with confirmPassword := text }

end UserCVCell

/-- `UIControl.addTarget`: an action that a control already has is not added again. -/
def addTarget (targets : List Selector) (action : Selector) : List Selector :=
  if action ∈ targets then targets else targets ++ [action]

namespace SignupAndLoginVC

abbrev numberOfItemsInSection : ℕ := 2

/-- The cell of a row, from the cell that the collection view hands out. -/
def cellForItemAt (row : Fin numberOfItemsInSection) (cell : UserCVCell) : UserCVCell :=
  if row = 0 then { cell with
    confirmPasswordIsHidden := true
    userNameIsHidden := true
    statusLabel := "Don't have an account ?"
    actionTitle := "Sign in"
    slideTitle := "Join Us..!"
    actionTargets := addTarget cell.actionTargets .loginButtonAction
    slideTargets := addTarget cell.slideTargets .slideToLogInCell
    cornerRadius := 30 }
  else { cell with
    confirmPasswordIsHidden := false
    emailIsHidden := false
    statusLabel := "Already have an account ?"
    actionTitle := "Ready to go.."
    slideTitle := "Sign in"
    slideTargets := addTarget cell.slideTargets .slideToSignUpCell
    actionTargets := addTarget cell.actionTargets .signupButtonAction }

/-- The calls of an action, which finds its form with `cellForItem(at:) as!`; a row that is not
in sight has no cell and stops the process. -/
def send (cellForItem : Fin numberOfItemsInSection → Option UserCVCell) :
    Selector → Option (List Call)
  | .loginButtonAction => do
    let loginUserInfo ← cellForItem 0
    return loginButtonAction loginUserInfo.email loginUserInfo.password
  | .signupButtonAction => do
    let signupUserInfo ← cellForItem 1
    return signupButtonAction signupUserInfo.email signupUserInfo.password
      signupUserInfo.confirmPassword signupUserInfo.userName
  | .slideToLogInCell | .slideToSignUpCell => some []

/-- A touch on a button sends all its actions. -/
def touchUpInside (cellForItem : Fin numberOfItemsInSection → Option UserCVCell)
    (targets : List Selector) : Option (List Call) := do
  let calls ← targets.mapM (send cellForItem)
  return calls.flatten

end SignupAndLoginVC

namespace LoginCells
open SignupAndLoginVC

abbrev Row := Fin numberOfItemsInSection

structure Form where
  pool : Pool Row UserCVCell
  /-- A cell that is not in sight was unwrapped; the process has stopped. -/
  stopped : Bool

inductive Act
  /-- A row comes into sight, in a cell that was shown before or in a new one. -/
  | willDisplay (row : Row) (reused : Option ℕ)
  | didEndDisplaying (row : Row)
  | edit (row : Row) (field : UserField) (text : String)
  | actionButton (row : Row)
  | slideButton (row : Row)
  deriving DecidableEq

def initial : Form := ⟨.empty, false⟩

/-- The calls of a touch on a button of a row in sight. -/
def Form.touch (form : Form) (targets : List Selector) : Option (List Call) :=
  touchUpInside form.pool.cellAt targets

def Form.stopUnless (form : Form) (calls : Option (List Call)) : Form :=
  { form with stopped := calls.isNone }

def step (form : Form) (a : Act) : Option Form :=
  if form.stopped then none else
  match a with
  | .willDisplay row reused => do
    let pool ← form.pool.enter row {} (cellForItemAt row) reused
    return { form with pool := pool }
  | .didEndDisplaying row => some { form with pool := form.pool.leave row }
  | .edit row field text => do
    let _ ← (form.pool.cellAt row).filter fun cell => !cell.isHidden field
    return { form with pool := form.pool.modifyAt row fun cell => cell.setText text field }
  | .actionButton row => do
    let cell ← form.pool.cellAt row
    return form.stopUnless (form.touch cell.actionTargets)
  | .slideButton row => do
    let cell ← form.pool.cellAt row
    return form.stopUnless (form.touch cell.slideTargets)

/-- A used cell is only handed out while the other row is in sight, as it is while the one form
slides out and the other one in. -/
def Overlapping (form : Form) (a : Act) : Prop :=
  ∀ row c, a = .willDisplay row (some c) → ∀ other, other ≠ row → (form.pool.visible other).isSome

/-- The one action that the button of a row is there for. -/
def action (row : Row) : Selector := if row = 0 then .loginButtonAction else .signupButtonAction

def slide (row : Row) : Selector := if row = 0 then .slideToLogInCell else .slideToSignUpCell

/-- What a cell that is only ever drawn for one row looks like; a new one has no actions yet. -/
structure InRole (row : Row) (cell : UserCVCell) : Prop where
  actionTargets : cell.actionTargets = [action row]
  slideTargets : cell.slideTargets = [slide row]
  email : cell.emailIsHidden = false
  userName : cell.userNameIsHidden = decide (row = 0)
  confirmPassword : cell.confirmPasswordIsHidden = decide (row = 0)

variable {row : Row} {cell : UserCVCell} {form form' : Form} {a : Act} {as : List Act}

theorem InRole.setText (h : InRole row cell) (text : String) (field : UserField) :
    InRole row (cell.setText text field) := by
  cases field <;> exact ⟨h.actionTargets, h.slideTargets, h.email, h.userName, h.confirmPassword⟩

theorem cellForItemAt_fresh (row : Row) : InRole row (cellForItemAt row {}) := by
  fin_cases row <;> constructor <;> rfl

theorem row_cases (row : Row) : row = 0 ∨ row = 1 := by
  fin_cases row
  · exact Or.inl rfl
  · exact Or.inr rfl

/-- Drawing a row again into its own cell adds no action. -/
theorem InRole.cellForItemAt (h : InRole row cell) : InRole row (cellForItemAt row cell) := by
  rcases row_cases row with rfl | rfl
  · refine ⟨?_, ?_, h.email, rfl, rfl⟩
    · simp [SignupAndLoginVC.cellForItemAt, addTarget, h.actionTargets, action]
    · simp [SignupAndLoginVC.cellForItemAt, addTarget, h.slideTargets, slide]
  · refine ⟨?_, ?_, rfl, h.userName, rfl⟩
    · simp [SignupAndLoginVC.cellForItemAt, addTarget, h.actionTargets, action]
    · simp [SignupAndLoginVC.cellForItemAt, addTarget, h.slideTargets, slide]

/-- What the button of a form is for, with the texts of the form. -/
def actionCalls (row : Row) (cell : UserCVCell) : List Call :=
  if row = 0 then loginButtonAction cell.email cell.password
  else signupButtonAction cell.email cell.password cell.confirmPassword cell.userName

theorem InRole.touch_action (h : InRole row cell) (hc : form.pool.cellAt row = some cell) :
    form.touch cell.actionTargets = some (actionCalls row cell) := by
  rw [h.actionTargets, Form.touch, touchUpInside]
  rcases row_cases row with rfl | rfl <;> simp [action, send, hc, actionCalls]

theorem InRole.touch_slide (h : InRole row cell) : form.touch cell.slideTargets = some [] := by
  rw [h.slideTargets, Form.touch, touchUpInside]
  rcases row_cases row with rfl | rfl <;> simp [slide, send]

/-- Each cell is in the role of the one row it is drawn for. -/
def Sound (form : Form) : Prop :=
  form.stopped = false ∧ ∃ home, form.pool.Homed InRole home

theorem Sound.step (h : Sound form) (ho : Overlapping form a) (hs : step form a = some form') :
    Sound form' := by
  obtain ⟨running, home, hhomed⟩ := h
  unfold LoginCells.step at hs
  rw [if_neg (by simp [running])] at hs
  cases a with
  | willDisplay row reused =>
    obtain ⟨pool, hin, heq⟩ := Option.bind_eq_some_iff.mp hs
    obtain rfl := Option.some.inj heq
    refine ⟨running, hhomed.enter hin (cellForItemAt_fresh row)
      (fun _ hb => hb.cellForItemAt) fun hreused => ?_⟩
    obtain ⟨c, rfl⟩ := Option.isSome_iff_exists.mp hreused
    exact ho row c rfl
  | didEndDisplaying row =>
    obtain rfl := Option.some.inj hs
    exact ⟨running, home, hhomed.leave row⟩
  | edit row field text =>
    obtain ⟨cell, -, heq⟩ := Option.bind_eq_some_iff.mp hs
    obtain rfl := Option.some.inj heq
    exact ⟨running, home, hhomed.modifyAt fun _ hb => hb.setText text field⟩
  | actionButton row =>
    obtain ⟨cell, hc, heq⟩ := Option.bind_eq_some_iff.mp hs
    obtain rfl := Option.some.inj heq
    exact ⟨by simp [Form.stopUnless, (hhomed.cellAt hc).touch_action hc], home, hhomed⟩
  | slideButton row =>
    obtain ⟨cell, hc, heq⟩ := Option.bind_eq_some_iff.mp hs
    obtain rfl := Option.some.inj heq
    exact ⟨by simp [Form.stopUnless, (hhomed.cellAt hc).touch_slide], home, hhomed⟩

/-- The tap on the device that the button of a form stands for. -/
def deviceTap (row : Row) (cell : UserCVCell) : Tap :=
  if row = 0 then .loginButtonAction cell.email cell.password
  else .signupButtonAction cell.email cell.password cell.confirmPassword cell.userName

/-- As long as the forms slide past each other, the cell in sight in a row is its form: the
fields of the other form are hidden, and its button makes the calls of its own action, once,
with its own texts, which is what a device does at such a tap on the login screen. -/
theorem cells_in_role (h : Run step initial as form) (ho : Along step initial Overlapping as) :
    form.stopped = false ∧ ∀ row cell, form.pool.cellAt row = some cell → InRole row cell ∧
      form.touch cell.actionTargets = some (actionCalls row cell) ∧
      form.touch cell.slideTargets = some [] ∧
      ∀ (dev : Device) (cover : NavigationWindow.Presented Cover), cover.content = .login →
        dev.tapCover cover (deviceTap row cell) =
          some ⟨dev, some cover.id, .ok (actionCalls row cell)⟩ := by
  have hsound : Sound form := h.invariant_along (I := Sound) ho
    ⟨rfl, fun _ => 0, Pool.empty_homed _ _⟩ fun hI ha hs => hI.step ha hs
  obtain ⟨running, home, hhomed⟩ := hsound
  refine ⟨running, fun row cell hc => ?_⟩
  have hrole := hhomed.cellAt hc
  refine ⟨hrole, hrole.touch_action hc, hrole.touch_slide, fun dev cover hcover => ?_⟩
  rcases row_cases row with rfl | rfl <;> simp [Device.tapCover, hcover, deviceTap, actionCalls]

/-- The log-in form, then the sign-up form, and back. -/
def backAndForth : List Act :=
  [.willDisplay 0 none, .edit 0 .email "e", .willDisplay 1 none, .didEndDisplaying 0,
    .willDisplay 0 (some 0), .didEndDisplaying 1, .actionButton 0]

def overlaps (form : Form) : Act → Bool
  | .willDisplay row (some _) => decide (∀ other, other ≠ row → (form.pool.visible other).isSome)
  | _ => true

theorem overlapping_of_overlaps (h : overlaps form a = true) : Overlapping form a := by
  rintro row c rfl
  exact of_decide_eq_true h

theorem cells_in_role_backAndForth : ∃ form, Run step initial backAndForth form ∧
    form.stopped = false := by
  obtain ⟨form, hrun⟩ : ∃ form, exec step initial backAndForth = some form :=
    Option.isSome_iff_exists.mp rfl
  have halong : Along step initial Overlapping backAndForth :=
    along_of_check (fun _ _ => overlapping_of_overlaps) (by decide)
  exact ⟨form, run_iff_exec.mpr hrun, (cells_in_role (run_iff_exec.mpr hrun) halong).1⟩

/-- Without the overlap the sign-up form comes up in the cell of the log-in form: its button
runs both actions, and the one of the log-in form unwraps a cell that is not there. -/
theorem cells_not_in_role : ¬ ∀ as form, Run step initial as form → form.stopped = false := by
  intro hall
  have hend : (exec step initial [.willDisplay 0 none, .didEndDisplaying 0,
      .willDisplay 1 (some 0), .actionButton 1]).map Form.stopped = some true := rfl
  obtain ⟨form, hrun, hstopped⟩ := run_of_exec_map hend
  exact Bool.false_ne_true ((hall _ form hrun).symm.trans hstopped)

end LoginCells

end LoopChat
