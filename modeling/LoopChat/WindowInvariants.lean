import LoopChat.DeviceReactions

/-!
# The layers of a window

SignupAndLoginVC and the Confirm alert are only ever presented by the navigation controller,
never over another presented controller, and SignupAndLoginVC only over the root screen.
Every reaction of a device keeps this.
-/
namespace LoopChat
open FirebaseValues NavigationWindow

def Cover.AtBottom (cover : Cover) : Prop :=
  cover = .login ∨ ∃ title message, cover = .confirm title message

@[simp] theorem Cover.setForgetPassword_eq_login (vc : ForgetPasswordVC) (cover : Cover) :
    cover.setForgetPassword vc = .login ↔ cover = .login := by
  cases cover <;> simp [setForgetPassword]

@[simp] theorem Cover.setForgetPassword_atBottom (vc : ForgetPasswordVC) (cover : Cover) :
    (cover.setForgetPassword vc).AtBottom ↔ cover.AtBottom := by
  cases cover <;> simp [setForgetPassword, AtBottom]

/-- The calls that change the device by themselves. -/
def Call.isLocal : Call → Bool
  | .signOut | .popToRoot | .dismiss | .present _ | .showLogin => true
  | _ => false

theorem CoverCall.not_atBottom {call : Call} (h : CoverCall call) :
    call.isLocal = false ∨ ∃ screen, call = .present screen ∧ ¬ screen.cover.AtBottom := by
  cases h
  · exact Or.inr ⟨_, rfl, by simp [Modal.cover, Cover.AtBottom]⟩
  · exact Or.inr ⟨_, rfl, by simp [Modal.cover, Cover.AtBottom]⟩
  all_goals exact Or.inl rfl

@[simp] theorem Reaction.after_singleton (dev : Device) (issuer : Option ℕ) (call : Call) :
    (⟨dev, issuer, .ok [call]⟩ : Reaction).after = dev.perform issuer call := rfl

namespace Device

@[simp] theorem setWindow_window (dev : Device) (window : Window Screen Cover) :
    (dev.setWindow window).window = window := rfl

@[simp] theorem setWindow_currentUser (dev : Device) (window : Window Screen Cover) :
    (dev.setWindow window).currentUser = dev.currentUser := rfl

theorem perform_of_not_local {call : Call} (h : call.isLocal = false) (issuer : Option ℕ)
    (dev : Device) : dev.perform issuer call = dev := by
  cases call <;> simp [Call.isLocal] at h <;> rfl

theorem foldl_perform_of_not_local {calls : List Call} (issuer : Option ℕ) (dev : Device)
    (h : ∀ call ∈ calls, call.isLocal = false) : calls.foldl (perform issuer) dev = dev := by
  induction calls with
  | nil => rfl
  | cons call calls ih =>
    rw [List.foldl_cons, perform_of_not_local (h call (by simp))]
    exact ih fun c hc => h c (List.mem_cons_of_mem _ hc)

/-- A reaction that only makes requests leaves the window and the user as they are. -/
theorem after_of_not_local {r : Reaction}
    (h : ∀ calls, r.calls = .ok calls → ∀ call ∈ calls, call.isLocal = false) :
    r.after.window = r.device.window ∧ r.after.currentUser = r.device.currentUser := by
  unfold Reaction.after
  cases hc : r.calls with
  | error trap => exact ⟨rfl, rfl⟩
  | ok calls =>
    have hfold := foldl_perform_of_not_local r.issuer r.device (h calls hc)
    exact ⟨congrArg Device.window hfold, congrArg Device.currentUser hfold⟩

theorem update_not_local (vc : UserProfileVC) (currentUser : Option String) {calls : List Call}
    (h : vc.update currentUser = .ok calls) : ∀ call ∈ calls, call.isLocal = false := by
  obtain ⟨uid, -, rfl⟩ := UserProfileVC.update_eq_ok.mp h
  simp [Call.isLocal]

theorem deleteAccountYes_not_local {currentUser : Option String} {calls : List Call}
    (h : UserProfileVC.deleteAccountYes currentUser = .ok calls) :
    ∀ call ∈ calls, call.isLocal = false := by
  obtain ⟨uid, -, rfl⟩ := UserProfileVC.deleteAccountYes_eq_ok.mp h
  simp [Call.isLocal]

/-- Appearing screens other than the root only make requests and observe. -/
theorem appearance_not_local {dev : Device} (hs : dev.window.stack ≠ []) {calls : List Call}
    (h : dev.appearance.2 = .ok calls) : ∀ call ∈ calls, call.isLocal = false := by
  unfold appearance at h
  split at h
  · contradiction
  · obtain ⟨uid, -, rfl⟩ := loadUser_eq_ok.mp h
    simp [Call.isLocal]
  · rename_i vc _ _
    obtain ⟨uid, -, rfl⟩ := ChatScreentVC.viewDidAppear_eq_ok.mp h
    unfold ChatScreentVC.getMessage
    cases vc.community <;> simp [Call.isLocal]
  · obtain rfl := Except.ok.inj h
    simp

/-- The root screen presents the login screen when nobody is signed in. -/
theorem after_viewDidAppear_root {dev : Device} {reaction : Reaction}
    (h : dev.viewDidAppear = some reaction) (hs : dev.window.stack = []) :
    reaction.after.currentUser = dev.currentUser ∧ reaction.after.window =
      if dev.currentUser = none then dev.window.appeared.presentOnRoot .login
      else dev.window.appeared := by
  obtain ⟨-, -, rfl⟩ := viewDidAppear_eq_some.mp h
  cases hu : dev.currentUser <;>
    simp [Reaction.after, appearance, hs, CommunityVC.viewDidAppear, hu,
      CommunityVC.presentLoginScreen, CommunityVC.observeCommunity, perform]

theorem after_viewDidAppear_pushed {dev : Device} {reaction : Reaction}
    (h : dev.viewDidAppear = some reaction) (hs : dev.window.stack ≠ []) :
    reaction.after.currentUser = dev.currentUser ∧
      reaction.after.window = dev.window.appeared := by
  obtain ⟨-, -, rfl⟩ := viewDidAppear_eq_some.mp h
  obtain ⟨hw, hu⟩ := after_of_not_local (r := ⟨dev.setWindow dev.window.appeared,
    dev.appearance.1, dev.appearance.2⟩) fun calls hc => appearance_not_local hs hc
  exact ⟨hu, hw⟩

/-! ### Reactions and the layers -/

structure Layered (dev : Device) : Prop where
  based : dev.window.Based Cover.AtBottom
  root : dev.LoginPresented → dev.window.stack = []

variable {dev : Device} {t : Tap} {reaction : Reaction} {issuer : Option ℕ} {call : Call}

theorem Idle.not_loginPresented (idle : dev.Idle) : ¬ dev.LoginPresented := by
  rintro ⟨p, hp, -⟩
  simp [idle.1] at hp

/-- A presented alert or ForgetPasswordVC is no login screen. -/
theorem loginPresented_of_perform (h : (dev.perform issuer call).LoginPresented)
    (hcall : call ≠ .showLogin) : dev.LoginPresented := by
  cases call
  case showLogin => exact absurd rfl hcall
  case popToRoot =>
    obtain ⟨p, hp, hc⟩ := h
    exact ⟨p, by simpa [perform] using hp, hc⟩
  case dismiss => exact Window.covered_of_dismiss h
  case present screen =>
    rcases Window.covered_of_present h with h | h
    · exact h
    · cases screen <;> simp [Modal.cover] at h
  all_goals exact h

theorem loginPresented_of_foldl {calls : List Call} (hcalls : .showLogin ∉ calls)
    (h : (calls.foldl (perform issuer) dev).LoginPresented) : dev.LoginPresented := by
  induction calls generalizing dev with
  | nil => exact h
  | cons call calls ih =>
    have hne : Call.showLogin ≠ call ∧ .showLogin ∉ calls := by simpa using hcalls
    exact loginPresented_of_perform (ih hne.2 h) hne.1.symm

/-- Only a call of `showLogin` brings the login screen up. -/
theorem loginPresented_of_after (h : reaction.after.LoginPresented)
    (hcalls : ∀ calls, reaction.calls = .ok calls → .showLogin ∉ calls) :
    reaction.device.LoginPresented := by
  unfold Reaction.after at h
  cases hc : reaction.calls with
  | error trap => rwa [hc] at h
  | ok calls => exact loginPresented_of_foldl (hcalls calls hc) (by simpa only [hc] using h)

theorem showLogin_notMem {calls : List Call} (h : ∀ call ∈ calls, call.isLocal = false) :
    .showLogin ∉ calls :=
  fun hmem => absurd (h _ hmem) (by simp [Call.isLocal])

theorem loginPresented_setForgetPassword {id : Option ℕ} {vc : ForgetPasswordVC} :
    (dev.setWindow (dev.window.modifyCover id (Cover.setForgetPassword vc))).LoginPresented ↔
      dev.LoginPresented :=
  Window.covered_modifyCover (Cover.setForgetPassword_eq_login vc)

theorem loginPresented_of_tap (ht : TapEffect dev t reaction) (hl : reaction.after.LoginPresented) :
    dev.LoginPresented := by
  cases ht with
  | pushed issuer screen idle => exact hl
  | popped idle stack => exact hl
  | reappeared idle stack => exact hl
  | loggedOut idle stack =>
    exact loginPresented_of_after hl (by
      simp [SettignScreenVC.logoutButton, SettignScreenVC.presentLoginScreen])
  | edited vc' idle stack => exact hl
  | updated idle stack =>
    exact loginPresented_of_after hl fun _ hc => showLogin_notMem (update_not_local _ _ hc)
  | asked idle stack => exact loginPresented_of_after hl (by simp [UserProfileVC.deleteAccount])
  | confirmed covers kind =>
    exact Window.covered_of_dismiss
      (loginPresented_of_after hl fun _ hc => showLogin_notMem (deleteAccountYes_not_local hc))
  | closed covers kind => exact Window.covered_of_dismiss hl
  | resetEdited vc covers => exact loginPresented_setForgetPassword.mp hl
  | called covers call_kind =>
    exact loginPresented_of_after hl (by cases call_kind <;> simp)

theorem loginPresented_of_complete {answer : Answer}
    (hc : CompleteEffect dev issuer call answer reaction) (hl : reaction.after.LoginPresented) :
    dev.LoginPresented := by
  cases hc with
  | trapped decode => exact hl
  | loaded screen decode => exact hl
  | signedUp email password userName uid => exact loginPresented_of_after hl (by simp)
  | signedIn email password no_error => exact loginPresented_of_after hl (by simp)
  | signInFailed email password error =>
    exact loginPresented_of_after hl (by simp [SignupAndLoginVC.showError])
  | deleted uid no_error => exact loginPresented_of_after hl (by simp)
  | resetAnswered email title message vc =>
    exact loginPresented_setForgetPassword.mp (loginPresented_of_after hl (by simp))
  | nothing no_auth no_delete => exact hl

/-- A tap changes the user only by signing out. -/
theorem tap_currentUser (ht : TapEffect dev t reaction) :
    reaction.after.currentUser = dev.currentUser ∨ reaction.after.currentUser = none := by
  cases ht with
  | loggedOut idle stack => exact Or.inr rfl
  | updated idle stack =>
    exact Or.inl (after_of_not_local fun _ hc => update_not_local _ _ hc).2
  | confirmed covers kind =>
    exact Or.inl (after_of_not_local fun _ hc => deleteAccountYes_not_local hc).2
  | called covers call_kind => exact Or.inl (by cases call_kind <;> rfl)
  | _ => exact Or.inl rfl

theorem complete_currentUser {answer : Answer}
    (h : CompleteEffect dev issuer call answer reaction) :
    reaction.after.currentUser = dev.currentUser := by
  cases h <;> rfl

theorem Layered.perform_present (h : dev.Layered) (screen : Modal)
    (hm : ¬ screen.cover.AtBottom) : (dev.perform issuer (.present screen)).Layered where
  based := h.based.present hm
  root := by
    intro hl
    simpa [perform] using h.root (loginPresented_of_perform hl (by simp))

theorem Layered.perform_popToRoot (h : dev.Layered) : (dev.perform issuer .popToRoot).Layered where
  based := h.based.of_covers_eq (by simp [perform])
  root := by
    intro hl
    rcases dev.window.popToRoot_stack issuer with hs | hs
    · exact hs
    · exact hs.trans (h.root (loginPresented_of_perform hl (by simp)))

theorem Layered.perform_dismiss (h : dev.Layered) : (dev.perform issuer .dismiss).Layered where
  based := h.based.dismiss
  root := by
    intro hl
    simpa [perform] using h.root (loginPresented_of_perform hl (by simp))

theorem Layered.dismissed (h : dev.Layered) (cover : Presented Cover) :
    (dev.dismissed cover).Layered := by
  exact (h.perform_dismiss : (dev.perform (some cover.id) .dismiss).Layered)

theorem Layered.of_covers_stack {dev' : Device} (h : dev.Layered)
    (hc : dev'.window.covers = dev.window.covers) (hs : dev'.window.stack = dev.window.stack) :
    dev'.Layered where
  based := h.based.of_covers_eq hc
  root := by
    rintro ⟨p, hp, hl⟩
    exact hs.trans (h.root ⟨p, hc ▸ hp, hl⟩)

theorem Layered.of_window_eq {dev' : Device} (h : dev.Layered) (hw : dev'.window = dev.window) :
    dev'.Layered :=
  h.of_covers_stack (by rw [hw]) (by rw [hw])

theorem Layered.setForgetPassword (h : dev.Layered) (id : Option ℕ) (vc : ForgetPasswordVC) :
    (dev.setWindow (dev.window.modifyCover id (Cover.setForgetPassword vc))).Layered where
  based := h.based.modifyCover (Cover.setForgetPassword_atBottom vc)
  root := by
    intro hl
    exact h.root ((Window.covered_modifyCover (Cover.setForgetPassword_eq_login vc)).mp hl)

theorem Layered.modifyScreen (h : dev.Layered) (id : Option ℕ) (f : Screen → Screen) :
    (dev.setWindow (dev.window.modifyScreen id f)).Layered where
  based := h.based.of_covers_eq rfl
  root := fun hl => (Window.modifyScreen_stack_eq_nil _ _ _).mpr (h.root hl)

theorem Idle.layered {dev' : Device} (idle : dev.Idle)
    (hc : dev'.window.covers = dev.window.covers) : dev'.Layered where
  based := Window.based_of_length_le_one (by simp [hc, idle.1])
  root := by
    rintro ⟨p, hp, -⟩
    simp [hc, idle.1] at hp

theorem Layered.tap (h : dev.Layered) (ht : TapEffect dev t reaction) :
    reaction.after.Layered := by
  cases ht with
  | pushed issuer screen idle => exact idle.layered rfl
  | popped idle stack => exact idle.layered rfl
  | reappeared idle stack => exact idle.layered rfl
  | loggedOut idle stack => exact idle.layered (dev.window.popToRoot_covers _)
  | edited vc' idle stack => exact idle.layered rfl
  | updated idle stack =>
    exact h.of_window_eq (after_of_not_local fun _ hc => update_not_local _ _ hc).1
  | asked idle stack =>
    refine ⟨Window.based_present_of_empty idle.1, fun hl => ?_⟩
    rw [UserProfileVC.deleteAccount, Reaction.after_singleton] at hl
    exact absurd (loginPresented_of_perform hl (by simp)) idle.not_loginPresented
  | @confirmed cover _ _ _ covers kind =>
    exact (h.dismissed cover).of_window_eq
      (after_of_not_local fun _ hc => deleteAccountYes_not_local hc).1
  | @closed _ cover _ covers kind => exact h.dismissed cover
  | @resetEdited _ cover _ vc covers => exact h.setForgetPassword (some cover.id) vc
  | called covers call_kind =>
    rcases call_kind.not_atBottom with hl | ⟨screen, rfl, hm⟩
    · exact h.of_window_eq (by rw [Reaction.after_singleton, perform_of_not_local hl])
    · exact h.perform_present screen hm

theorem Layered.viewDidAppear (h : dev.Layered) (ha : dev.viewDidAppear = some reaction) :
    reaction.after.Layered := by
  by_cases hs : dev.window.stack = []
  · have hw := (after_viewDidAppear_root ha hs).2
    constructor
    · rw [hw]
      split_ifs
      · exact (h.based.of_covers_eq (v := dev.window.appeared) rfl).presentOnRoot
      · exact h.based.of_covers_eq rfl
    · intro _
      rw [hw]
      split_ifs
      · rw [Window.presentOnRoot_stack]
        exact hs
      · exact hs
  · have hw := (after_viewDidAppear_pushed ha hs).2
    exact h.of_covers_stack (by rw [hw]; rfl) (by rw [hw]; rfl)

theorem Layered.complete (h : dev.Layered) {answer : Answer}
    (hc : CompleteEffect dev issuer call answer reaction) : reaction.after.Layered := by
  have hdismiss : (dev.perform issuer .dismiss).Layered := h.perform_dismiss
  cases hc with
  | trapped decode => exact h.of_window_eq rfl
  | loaded screen decode => exact h.modifyScreen issuer _
  | signedUp email password userName uid => exact hdismiss
  | signedIn email password no_error => exact hdismiss
  | signInFailed email password error =>
    exact h.perform_present _ (by simp [Modal.cover, Cover.AtBottom])
  | deleted uid no_error => exact h.perform_popToRoot
  | resetAnswered email title message vc =>
    exact (h.setForgetPassword issuer vc).perform_present _ (by simp [Modal.cover, Cover.AtBottom])
  | nothing no_auth no_delete => exact h

theorem served_window (dev : Device) (call : Call) (answer : Answer) :
    (dev.served call answer).window = dev.window := by
  unfold served
  split <;> try rfl
  split_ifs <;> rfl

theorem layered_launched (currentUser : Option String) : (launched currentUser).Layered :=
  ⟨Window.based_of_length_le_one (by simp [launched]), fun _ => rfl⟩

end Device

end LoopChat
