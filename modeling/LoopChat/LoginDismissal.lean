import LoopChat.AppRuns

/-!
# Leaving the login screen

Both successful handlers send `dismiss` to the login screen that made the request. UIKit
takes this for the controller presented over it when there is one, and an old login screen
cannot dismiss a new one.
-/
namespace LoopChat
open FirebaseValues NavigationWindow

namespace Device

/-- The login screen is up only while nobody is signed in. -/
def LoginNeeded (dev : Device) : Prop := dev.LoginPresented → dev.currentUser = none

variable {dev : Device} {t : Tap} {reaction : Reaction} {issuer : Option ℕ} {call : Call}

theorem LoginNeeded.tap (h : dev.LoginNeeded) (ht : TapEffect dev t reaction) :
    reaction.after.LoginNeeded := by
  intro hl
  rcases tap_currentUser ht with hu | hu
  · exact hu.trans (h (loginPresented_of_tap ht hl))
  · exact hu

theorem LoginNeeded.viewDidAppear (h : dev.LoginNeeded) (ha : dev.viewDidAppear = some reaction) :
    reaction.after.LoginNeeded := by
  intro hl
  by_cases hs : dev.window.stack = []
  · obtain ⟨hcur, hw⟩ := after_viewDidAppear_root ha hs
    rw [hcur]
    by_contra hu
    rw [if_neg hu] at hw
    exact hu (h (by simpa [LoginPresented, hw, Window.Covered, Window.appeared] using hl))
  · obtain ⟨hcur, hw⟩ := after_viewDidAppear_pushed ha hs
    rw [hcur]
    exact h (by simpa [LoginPresented, hw, Window.Covered, Window.appeared] using hl)

theorem LoginNeeded.served (h : dev.LoginNeeded) {answer : Answer}
    (hk : call.authenticates answer = false) : (dev.served call answer).LoginNeeded := by
  intro hl
  have hdev := h (by simpa [LoginPresented, served_window] using hl)
  unfold Device.served
  split
  · simp [Call.authenticates] at hk
  · simp [Call.authenticates] at hk
  · split_ifs
    · rfl
    · exact hdev
  · exact hdev

theorem LoginNeeded.complete (h : dev.LoginNeeded) {answer : Answer}
    (hc : CompleteEffect dev issuer call answer reaction) : reaction.after.LoginNeeded := by
  intro hl
  rw [complete_currentUser hc]
  exact h (loginPresented_of_complete hc hl)

/-- A login screen that presents nothing is dismissed by the success of its own request. -/
theorem not_loginPresented_of_authenticates {answer : Answer} {login : Presented Cover}
    (hk : call.authenticates answer = true) (covers : dev.window.covers = [login])
    (hi : issuer = some login.id) (hc : CompleteEffect dev issuer call answer reaction) :
    ¬ reaction.after.LoginPresented := by
  have hdismiss : ¬ (dev.perform issuer .dismiss).LoginPresented := by
    rintro ⟨p, hp, -⟩
    simp [perform, hi, Window.dismiss_top covers] at hp
  cases hc with
  | signedUp email password userName uid => exact hdismiss
  | signedIn email password no_error => exact hdismiss
  | nothing no_auth no_delete => simp [no_auth] at hk
  | signInFailed email password error =>
    cases answer <;> simp [Call.authenticates, Answer.isError] at hk error
  | _ => simp [Call.authenticates] at hk

end Device

namespace AppSystem
open TransitionRuns

variable {normalise : String → String} {stores : Stores} {session : ℕ → Option String}
  {w : World} {as : List Act}

theorem loginNeeded_guarded : Guarded Device.LoginNeeded Call.authenticates where
  launched := fun user hl => by simp [Device.LoginPresented, Device.launched, Window.Covered] at hl
  tap := fun _ ht h => h.tap ht
  viewDidAppear := fun _ ha h => h.viewDidAppear ha
  served := fun hk h => h.served hk
  complete := fun _ _ h => h.complete (Device.complete_effect _ _ _ _)

/-- When the handler of a successful sign-in or sign-up runs, the login screen that made the
request is the one that is up and it presents nothing, or there is nothing to leave: no login
screen is up, nobody is signed in any more, or another such handler is due. -/
def LeavesLogin (w : World) : Act → Prop
  | .complete i => ∀ request answer, w.requests[i]? = some request →
      request.answer = some answer → request.call.authenticates answer = true →
      (∃ login, (w.devices request.device).window.covers = [login] ∧
        request.issuer = some login.id) ∨
      ¬ (w.devices request.device).LoginPresented ∨
      (w.devices request.device).currentUser = none ∨
      Due (w.requests.eraseIdx i) request.device Call.authenticates
  | _ => True

theorem LeavesLogin.restored {a : Act} (h : LeavesLogin w a) :
    Restored Device.LoginNeeded Call.authenticates w a := by
  cases a with
  | complete i =>
    intro request answer hi ha hk
    have hc := Device.complete_effect (w.devices request.device) request.issuer request.call answer
    rcases h request answer hi ha hk with ⟨login, covers, hid⟩ | hno | hu | hdue
    · exact Or.inl fun hl =>
        absurd hl (Device.not_loginPresented_of_authenticates hk covers hid hc)
    · exact Or.inl fun hl => absurd (Device.loginPresented_of_complete hc hl) hno
    · exact Or.inl fun _ => (Device.complete_currentUser hc).trans hu
    · exact Or.inr hdue
  | signOutByForce d => exact fun _ _ => rfl
  | tap | viewDidAppear | serve => trivial

/-- The first case of the condition, as a test. -/
def checkLoginOnTop (w : World) : Act → Bool
  | .complete i => (w.requests[i]?).all fun request => request.answer.all fun answer =>
      !request.call.authenticates answer ||
        ((w.devices request.device).window.covers.map fun p => some p.id) == [request.issuer]
  | _ => true

theorem leavesLogin_of_check {a : Act} (h : checkLoginOnTop w a = true) : LeavesLogin w a := by
  cases a with
  | complete i =>
    intro request answer hi ha hk
    have heq : ((w.devices request.device).window.covers.map fun p => some p.id) =
        [request.issuer] := by
      simpa [checkLoginOnTop, hi, ha, hk] using h
    obtain ⟨login, hcov, hid⟩ := List.map_eq_singleton_iff.mp heq
    exact Or.inl ⟨login, hcov, hid.symm⟩
  | tap | viewDidAppear | serve | signOutByForce => trivial

/-- On every device on which nothing is due, a signed-in user has left the login screen. -/
theorem login_left (h : Run (step normalise) (initial stores session) as w)
    (hC : Along (step normalise) (initial stores session) LeavesLogin as) (d : ℕ)
    (settled : w.Settled d) (hu : (w.devices d).currentUser ≠ none) :
    ¬ (w.devices d).LoginPresented := by
  have hC' : Along (step normalise) (initial stores session)
      (Restored Device.LoginNeeded Call.authenticates) as :=
    fun pre a post s heq hr => (hC pre a post s heq hr).restored
  rcases guarded_run loginNeeded_guarded h hC' d with hg | hdue
  · exact fun hl => hu (hg hl)
  · exact absurd hdue settled.not_due

theorem signUp_login_left :
    ∃ w, Run (step id) firstLaunch signUp w ∧ ¬ (w.devices 0).LoginPresented := by
  have hend : (exec (step id) firstLaunch signUp).map (fun w =>
      ((w.devices 0).window.appearing, w.requests.length, (w.devices 0).currentUser)) =
      some (false, 0, some "u") := rfl
  obtain ⟨w, hw, heq⟩ := run_of_exec_map hend
  obtain ⟨happ, hreq, hu⟩ := by simpa only [Prod.mk.injEq] using heq
  exact ⟨w, hw, login_left hw
    (along_of_check (fun _ _ => leavesLogin_of_check) rfl) 0
    ⟨happ, by simp [List.length_eq_zero_iff.mp hreq]⟩ (by simp [hu])⟩

/-- The password screen is opened while the sign-up is on its way. -/
def impatientSignUp : List Act :=
  [.viewDidAppear 0, .tap 0 (.signupButtonAction "e" "p" "p" "n"), .tap 0 .forgetPasswordAction,
    .serve 0 (.user "u"), .complete 0, .serve 0 .done, .complete 0]

/-- `dismiss` closes the password screen, and the login screen stays over the signed-in app. -/
theorem impatientSignUp_stays : ¬ ∀ normalise stores session as w,
    Run (step normalise) (initial stores session) as w → ∀ d, w.Settled d →
      (w.devices d).currentUser ≠ none → ¬ (w.devices d).LoginPresented := by
  intro hall
  have hend : (exec (step id) firstLaunch impatientSignUp).map (fun w =>
      ((w.devices 0).window.appearing, w.requests.length, (w.devices 0).currentUser,
        (w.devices 0).window.covers)) = some (false, 0, some "u", [⟨0, none, .login⟩]) := rfl
  obtain ⟨w, hw, heq⟩ := run_of_exec_map hend
  obtain ⟨happ, hreq, hu, hcov⟩ := by simpa only [Prod.mk.injEq] using heq
  refine hall id _ _ impatientSignUp w hw 0
    ⟨happ, by simp [List.length_eq_zero_iff.mp hreq]⟩ (by simp [hu]) ?_
  exact ⟨_, by rw [hcov]; exact List.mem_cons_self, rfl⟩

end AppSystem

end LoopChat
