import LoopChat.AppRuns

/-!
# The login gate

Only the root screen asks for a login, in its `viewDidAppear`. A log-out pops to the root;
the deletion of an account does so in a completion handler, which finds no navigation
controller when the user has left the profile screen meanwhile.
-/
namespace LoopChat
open FirebaseValues NavigationWindow

namespace Device

/-- The login screen is presented, or the root screen is about to present it. -/
def Gated (dev : Device) : Prop :=
  dev.LoginPresented ∨
    (dev.window.covers = [] ∧ dev.window.stack = [] ∧ dev.window.appearing = true)

variable {dev : Device} {t : Tap} {reaction : Reaction} {issuer : Option ℕ} {call : Call}

theorem Idle.not_gated (idle : dev.Idle) : ¬ dev.Gated := by
  rintro (h | ⟨-, -, h⟩)
  · exact idle.not_loginPresented h
  · simp [idle.2] at h

theorem Gated.of_window_eq {dev' : Device} (h : dev.Gated) (hw : dev'.window = dev.window) :
    dev'.Gated := by
  unfold Gated LoginPresented
  rw [hw]
  exact h

/-- A presented controller that is closed by the user is not the login screen. -/
theorem Gated.dismissed {cover : Presented Cover} {below : List (Presented Cover)} (h : dev.Gated)
    (covers : dev.window.covers = cover :: below) (kind : cover.content ≠ .login) :
    (dev.dismissed cover).Gated := by
  rcases h with ⟨p, hp, hl⟩ | ⟨hc, -⟩
  · rw [covers] at hp
    rcases List.mem_cons.mp hp with rfl | hp
    · exact absurd hl kind
    · exact Or.inl ⟨p, by simpa [Device.dismissed, Window.dismiss_top covers] using hp, hl⟩
  · simp [covers] at hc

theorem Gated.perform_present (h : dev.Gated) (screen : Modal) :
    (dev.perform issuer (.present screen)).Gated := by
  rcases h with h | ⟨hc, hs, ha⟩
  · exact Or.inl h.present
  · refine Gated.of_window_eq (Or.inr ⟨hc, hs, ha⟩) ?_
    exact Window.present_of_empty hc hs

theorem Gated.setForgetPassword (h : dev.Gated) (id : Option ℕ) (vc : ForgetPasswordVC) :
    (dev.setWindow (dev.window.modifyCover id (Cover.setForgetPassword vc))).Gated := by
  rcases h with h | ⟨hc, hs, ha⟩
  · exact Or.inl ((Window.covered_modifyCover (Cover.setForgetPassword_eq_login vc)).mpr h)
  · exact Or.inr ⟨by simp [Window.modifyCover, hc], hs, ha⟩

/-- Dismissing the login screen lets the root screen appear again. -/
theorem Gated.perform_dismiss (h : dev.Gated) (hL : dev.Layered) :
    (dev.perform issuer .dismiss).Gated := by
  rcases h with h | ⟨hc, hs, ha⟩
  · rcases hL.based.dismiss_covered Cover.hides issuer (fun c hc => Or.inl hc) h with
      hp | ⟨top, -, htop, hnil, happ⟩
    · exact Or.inl hp
    · refine Or.inr ⟨hnil, ?_, ?_⟩
      · simpa [perform] using hL.root h
      · exact happ.trans (by simp [htop, Cover.hides])
  · refine Gated.of_window_eq (Or.inr ⟨hc, hs, ha⟩) ?_
    simp [perform, Window.dismiss, hc]

theorem Gated.perform_popToRoot (h : dev.Gated) : (dev.perform issuer .popToRoot).Gated := by
  rcases h with ⟨p, hp, hl⟩ | ⟨hc, hs, ha⟩
  · exact Or.inl ⟨p, by simpa [perform] using hp, hl⟩
  · exact Gated.of_window_eq (Or.inr ⟨hc, hs, ha⟩) (Window.popToRoot_of_stack_nil hs)

/-- A tap signs out only on its way to the root screen, and opens no other gate. -/
theorem gated_tap (h : TapEffect dev t reaction) (hg : dev.currentUser = none → dev.Gated)
    (hu : reaction.after.currentUser = none) : reaction.after.Gated := by
  cases h with
  | pushed issuer screen idle => exact absurd (hg hu) idle.not_gated
  | popped idle stack => exact absurd (hg hu) idle.not_gated
  | reappeared idle stack => exact absurd (hg hu) idle.not_gated
  | @loggedOut id below idle stack =>
    have hon : ({ dev with currentUser := none } : Device).window.onStack (some id) = true := by
      simp [Window.onStack, stack]
    obtain ⟨hs, ha⟩ := Window.popToRoot_of_onStack hon
    exact Or.inr ⟨(Window.popToRoot_covers _ _).trans idle.1, hs, ha⟩
  | edited vc' idle stack => exact absurd (hg hu) idle.not_gated
  | updated idle stack =>
    rw [(after_of_not_local fun _ hc => update_not_local _ _ hc).2] at hu
    exact absurd (hg hu) idle.not_gated
  | asked idle stack =>
    rw [UserProfileVC.deleteAccount, Reaction.after_singleton] at hu
    exact absurd (hg hu) idle.not_gated
  | @confirmed cover below title message covers kind =>
    obtain ⟨hw, hcur⟩ := after_of_not_local
      (r := ⟨dev.dismissed cover, cover.presenter,
        UserProfileVC.deleteAccountYes dev.currentUser⟩) fun _ hc => deleteAccountYes_not_local hc
    rw [hcur] at hu
    exact ((hg hu).dismissed covers (by simp [kind])).of_window_eq hw
  | closed covers kind => exact (hg hu).dismissed covers kind
  | @resetEdited _ cover _ vc covers => exact (hg hu).setForgetPassword (some cover.id) vc
  | called covers call_kind =>
    rcases call_kind.not_atBottom with hl | ⟨screen, rfl, -⟩
    · rw [Reaction.after_singleton, perform_of_not_local hl] at hu ⊢
      exact hg hu
    · exact (hg hu).perform_present screen

theorem gated_viewDidAppear (h : dev.viewDidAppear = some reaction)
    (hg : dev.currentUser = none → dev.Gated) (hu : reaction.after.currentUser = none) :
    reaction.after.Gated := by
  by_cases hs : dev.window.stack = []
  · obtain ⟨hcur, hw⟩ := after_viewDidAppear_root h hs
    rw [hcur] at hu
    rw [if_pos hu] at hw
    refine Or.inl ?_
    unfold LoginPresented
    rw [hw]
    rcases hg hu with hl | ⟨hnil, -⟩
    · exact Window.Covered.presentOnRoot hl
    · exact Window.covered_presentOnRoot hnil rfl
  · obtain ⟨hcur, hw⟩ := after_viewDidAppear_pushed h hs
    rw [hcur] at hu
    rcases hg hu with ⟨p, hp, hl⟩ | ⟨-, hnil, -⟩
    · exact Or.inl ⟨p, by simpa [hw, Window.appeared] using hp, hl⟩
    · exact absurd hnil hs

theorem gated_served {answer : Answer} (hk : call.deletesUser answer = false)
    (hg : dev.currentUser = none → dev.Gated) (hu : (dev.served call answer).currentUser = none) :
    (dev.served call answer).Gated := by
  refine Gated.of_window_eq (hg ?_) (served_window dev call answer)
  unfold served at hu
  split at hu
  · simp at hu
  · simp at hu
  · simp [Call.deletesUser] at hk
  · exact hu

theorem Gated.complete {answer : Answer} (h : dev.Gated) (hL : dev.Layered)
    (hc : CompleteEffect dev issuer call answer reaction) : reaction.after.Gated := by
  have hdismiss : (dev.perform issuer .dismiss).Gated := h.perform_dismiss hL
  cases hc with
  | trapped decode => exact h.of_window_eq rfl
  | loaded screen decode =>
    rcases h with h | ⟨hc, hs, ha⟩
    · exact Or.inl h
    · exact Or.inr ⟨hc, (Window.modifyScreen_stack_eq_nil _ _ _).mpr hs, ha⟩
  | signedUp email password userName uid => exact hdismiss
  | signedIn email password no_error => exact hdismiss
  | signInFailed email password error => exact h.perform_present _
  | deleted uid no_error => exact h.perform_popToRoot
  | resetAnswered email title message vc => exact (h.setForgetPassword issuer vc).perform_present _
  | nothing no_auth no_delete => exact h

/-- The profile screen returns to the root while it is on the stack and nothing is presented. -/
theorem gated_of_deletesUser {answer : Answer} (hk : call.deletesUser answer = true)
    (hcov : dev.window.covers = []) (hon : dev.window.onStack issuer = true)
    (hc : CompleteEffect dev issuer call answer reaction) : reaction.after.Gated := by
  cases hc with
  | deleted uid no_error =>
    obtain ⟨hs, ha⟩ := Window.popToRoot_of_onStack hon
    exact Or.inr ⟨(Window.popToRoot_covers _ _).trans hcov, hs, ha⟩
  | nothing no_auth no_delete => simp [no_delete] at hk
  | _ => simp [Call.deletesUser] at hk

end Device

namespace AppSystem
open TransitionRuns

variable {normalise : String → String} {stores : Stores} {session : ℕ → Option String}
  {w : World} {as : List Act}

theorem gated_guarded :
    Guarded (fun dev => dev.currentUser = none → dev.Gated) Call.deletesUser where
  launched := fun user _ => Or.inr ⟨rfl, rfl, rfl⟩
  tap := fun _ ht hg hu => Device.gated_tap ht hg hu
  viewDidAppear := fun _ ha hg hu => Device.gated_viewDidAppear ha hg hu
  served := fun hk hg hu => Device.gated_served hk hg hu
  complete := by
    intro dev issuer call answer hL _ hg hu
    have hc := Device.complete_effect dev issuer call answer
    rw [Device.complete_currentUser hc] at hu
    exact (hg hu).complete hL hc

/-- When the handler of a successful `user.delete` runs, its profile screen is still on the
stack with nothing presented over it, or the gate needs no help: somebody is signed in, the
login screen is up or about to come up, or another such handler is due. Auth signs nobody out by
force, unless the login screen is up or about to come up. -/
def ReturnsToRoot (w : World) : Act → Prop
  | .complete i => ∀ request answer, w.requests[i]? = some request →
      request.answer = some answer → request.call.deletesUser answer = true →
      ((w.devices request.device).window.covers = [] ∧
        (w.devices request.device).window.onStack request.issuer = true) ∨
      (w.devices request.device).currentUser ≠ none ∨ (w.devices request.device).Gated ∨
      Due (w.requests.eraseIdx i) request.device Call.deletesUser
  | .signOutByForce d => (w.devices d).currentUser = none ∨ (w.devices d).Gated
  | _ => True

/-- The first case of the condition, as a test. -/
def checkOnStack (w : World) : Act → Bool
  | .complete i => (w.requests[i]?).all fun request => request.answer.all fun answer =>
      !request.call.deletesUser answer ||
        ((w.devices request.device).window.covers.isEmpty &&
          (w.devices request.device).window.onStack request.issuer)
  | .signOutByForce _ => false
  | _ => true

theorem returnsToRoot_of_check {a : Act} (h : checkOnStack w a = true) : ReturnsToRoot w a := by
  cases a with
  | complete i =>
    intro request answer hi ha hk
    simpa [checkOnStack, hi, ha, hk] using Or.inl h
  | signOutByForce d => exact absurd h (by simp [checkOnStack])
  | tap | viewDidAppear | serve => trivial

theorem ReturnsToRoot.restored (hL : ∀ d, (w.devices d).Layered) {a : Act}
    (h : ReturnsToRoot w a) :
    Restored (fun dev => dev.currentUser = none → dev.Gated) Call.deletesUser w a := by
  cases a with
  | complete i =>
    intro request answer hi ha hk
    have hc := Device.complete_effect (w.devices request.device) request.issuer request.call answer
    rcases h request answer hi ha hk with ⟨hcov, hon⟩ | hu | hg | hdue
    · exact Or.inl fun _ => Device.gated_of_deletesUser hk hcov hon hc
    · exact Or.inl fun hnil => absurd (Device.complete_currentUser hc ▸ hnil) hu
    · exact Or.inl fun _ => hg.complete (hL request.device) hc
    · exact Or.inr hdue
  | signOutByForce d =>
    intro hp _
    have hg : (w.devices d).Gated := h.elim hp id
    exact hg.of_window_eq rfl
  | tap | viewDidAppear | serve => trivial

theorem gated_run (h : Run (step normalise) (initial stores session) as w)
    (hC : Along (step normalise) (initial stores session) ReturnsToRoot as) (d : ℕ) :
    ((w.devices d).currentUser = none → (w.devices d).Gated) ∨
      Due w.requests d Call.deletesUser := by
  refine guarded_run gated_guarded h ?_ d
  intro pre a post s heq hr
  exact (hC pre a post s heq hr).restored (layered_run hr)

/-- On every device on which nothing is due, a signed-out user has the login screen. -/
theorem login_gate (h : Run (step normalise) (initial stores session) as w)
    (hC : Along (step normalise) (initial stores session) ReturnsToRoot as) (d : ℕ)
    (settled : w.Settled d) (hu : (w.devices d).currentUser = none) :
    (w.devices d).LoginPresented := by
  rcases gated_run h hC d with hg | hdue
  · rcases hg hu with hl | ⟨-, -, happ⟩
    · exact hl
    · simp [settled.1] at happ
  · exact absurd hdue settled.not_due

/-- The deletion is confirmed and completes while the profile screen is up. -/
def stayingDeletion : List Act :=
  signUp ++ openProfile ++ [.serve 0 .done, .complete 0, .tap 0 .deleteUserAccount, .tap 0 .yes,
    .serve 0 .done, .serve 1 .done, .complete 1, .viewDidAppear 0, .complete 0]

theorem stayingDeletion_login_gate :
    ∃ w, Run (step id) firstLaunch stayingDeletion w ∧ (w.devices 0).LoginPresented := by
  have hend : (exec (step id) firstLaunch stayingDeletion).map (fun w =>
      ((w.devices 0).window.appearing, w.requests.length, (w.devices 0).currentUser)) =
      some (false, 0, none) := rfl
  obtain ⟨w, hw, heq⟩ := run_of_exec_map hend
  obtain ⟨happ, hreq, hu⟩ := by simpa only [Prod.mk.injEq] using heq
  refine ⟨w, hw, login_gate hw ?_ 0
    ⟨happ, by simp [List.length_eq_zero_iff.mp hreq]⟩ hu⟩
  exact along_of_check (fun _ _ => returnsToRoot_of_check) rfl

/-- The deletion is confirmed, and the user goes back to the settings before it completes. -/
def leavingDeletion : List Act :=
  signUp ++ openProfile ++ [.serve 0 .done, .complete 0, .tap 0 .deleteUserAccount, .tap 0 .yes,
    .tap 0 .back, .viewDidAppear 0, .serve 0 .done, .serve 1 .done, .complete 0, .complete 0]

/-- The popped profile screen has no navigation controller: the settings stay, signed out. -/
theorem leavingDeletion_no_login : ¬ ∀ normalise stores session as w,
    Run (step normalise) (initial stores session) as w → ∀ d, w.Settled d →
      (w.devices d).currentUser = none → (w.devices d).LoginPresented := by
  intro hall
  have hend : (exec (step id) firstLaunch leavingDeletion).map (fun w =>
      ((w.devices 0).window.appearing, w.requests.length, (w.devices 0).currentUser,
        (w.devices 0).window.covers)) = some (false, 0, none, []) := rfl
  obtain ⟨w, hw, heq⟩ := run_of_exec_map hend
  obtain ⟨happ, hreq, hu, hcov⟩ := by simpa only [Prod.mk.injEq] using heq
  obtain ⟨p, hp, -⟩ := hall id _ _ leavingDeletion w hw 0
    ⟨happ, by simp [List.length_eq_zero_iff.mp hreq]⟩ hu
  simp [hcov] at hp

end AppSystem

end LoopChat
