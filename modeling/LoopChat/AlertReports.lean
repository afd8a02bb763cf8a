import LoopChat.OwnAccounts

/-!
# What the alerts say

An alert is put up by a check at a tap or by the completion handler of a request. Each one goes
back to such a tap on the device, or to a request of the device with the texts that were typed
there that came back with or without an error. Which error it was no handler looks at.
-/
namespace LoopChat
open NavigationWindow

/-- What a presented controller goes back to, where `T` are the taps on the device, `E` says that
one of them was on Send while the address was empty, and `A` are the outcomes of its requests. -/
inductive Reported (T : Tap → Prop) (E : Prop) (A : Call → Outcome → Prop) : Cover → Prop
  | login : Reported T E A .login
  | forgetPassword {vc : ForgetPasswordVC}
      (typed : vc.userEmail = "" ∨ T (.editResetEmail vc.userEmail)) :
      Reported T E A (.forgetPassword vc)
  | question (tapped : T .deleteUserAccount) :
      Reported T E A (.confirm "Confirm" "Are you sure you want to delete this Account?")
  | loginEmpty {email : String} (tapped : T (.loginButtonAction email "")) :
      Reported T E A (.alert "Error" "can not be Empty")
  | signupEmpty {email password confirmPassword userName : String}
      (tapped : T (.signupButtonAction email password confirmPassword userName))
      (empty : email = "" ∨ password = "") : Reported T E A (.alert "Error" "can not be Empty")
  | noMatch {email password confirmPassword userName : String}
      (tapped : T (.signupButtonAction email password confirmPassword userName))
      (differ : password ≠ confirmPassword) :
      Reported T E A (.alert "Error" "The passwords is not match")
  | loginFailed {email password : String} (tapped : T (.loginButtonAction email password))
      (failed : A (.signIn email password) .failed) :
      Reported T E A (.alert "Error" "User name or Password is wrong")
  | resetEmpty (empty : E) :
      Reported T E A (.alert "Message" "Connot be Emapty")
  | resetSent {email : String} (named : email ≠ "") (typed : T (.editResetEmail email))
      (done : A (.sendPasswordReset email) .done) :
      Reported T E A (.alert "Message" "check your Email")
  | resetFailed {email : String} (named : email ≠ "") (typed : T (.editResetEmail email))
      (failed : A (.sendPasswordReset email) .failed) :
      Reported T E A (.alert "Message" "email does not exist")

/-- A call puts up what goes back to the taps and the answers, and asks Auth with what was
typed. -/
def Voiced (T : Tap → Prop) (E : Prop) (A : Call → Outcome → Prop) : Call → Prop
  | .present screen => Reported T E A screen.cover
  | .signIn email password => T (.loginButtonAction email password)
  | .sendPasswordReset email => email ≠ "" ∧ T (.editResetEmail email)
  | _ => True

/-- The answer was an outcome of the request. -/
def Explained (A : Call → Outcome → Prop) : Call → Answer → Prop
  | .signIn email password, .failed => A (.signIn email password) .failed
  | .sendPasswordReset email, .failed => A (.sendPasswordReset email) .failed
  | .sendPasswordReset email, _ => A (.sendPasswordReset email) .done
  | _, _ => True

variable {T : Tap → Prop} {E : Prop} {A : Call → Outcome → Prop}

theorem Reported.setForgetPassword {cover : Cover} {vc : ForgetPasswordVC}
    (h : Reported T E A cover) (hvc : vc.userEmail = "" ∨ T (.editResetEmail vc.userEmail)) :
    Reported T E A (cover.setForgetPassword vc) := by
  cases cover with
  | forgetPassword _ => exact .forgetPassword hvc
  | _ => exact h

namespace Device

/-- The controller in front is the form for an address, and its field is empty. -/
def AddressEmpty (dev : Device) : Prop :=
  ∃ p below vc, dev.window.covers = p :: below ∧ p.content = .forgetPassword vc ∧
    vc.userEmail = ""

def Reports (T : Tap → Prop) (E : Prop) (A : Call → Outcome → Prop) (dev : Device) : Prop :=
  ∀ p ∈ dev.window.covers, Reported T E A p.content

variable {dev dev' : Device} {t : Tap} {reaction : Reaction} {issuer : Option ℕ} {call : Call}
  {answer : Answer}

theorem Reports.of_subset (h : dev.Reports T E A)
    (hsub : dev'.window.covers ⊆ dev.window.covers) : dev'.Reports T E A :=
  fun p hp => h p (hsub hp)

theorem Reports.perform (h : dev.Reports T E A) (hcall : Voiced T E A call) :
    (dev.perform issuer call).Reports T E A := by
  cases call with
  | present screen =>
    intro p hp
    rcases dev.window.present_covers_cases issuer screen.cover with heq | ⟨-, heq⟩
    · exact h p (heq ▸ hp)
    · rcases List.mem_cons.mp (heq ▸ hp) with rfl | hp
      · exact hcall
      · exact h p hp
  | showLogin =>
    intro p hp
    simp only [Device.perform, setWindow_window, Window.presentOnRoot_covers] at hp
    split_ifs at hp
    · obtain rfl := List.mem_singleton.mp hp
      exact .login
    · exact h p hp
  | dismiss => exact h.of_subset (Window.dismiss_suffix Cover.hides dev.window issuer).subset
  | popToRoot => exact h.of_subset (by simp [Device.perform])
  | _ => exact h

end Device

/-- What a reaction leaves in sight and what it calls goes back to the taps and the answers. -/
structure Reaction.Honest (T : Tap → Prop) (E : Prop) (A : Call → Outcome → Prop)
    (reaction : Reaction) : Prop where
  device : reaction.device.Reports T E A
  calls : ∀ calls, reaction.calls = .ok calls → ∀ call ∈ calls, Voiced T E A call

theorem Reaction.Honest.after {reaction : Reaction} (h : reaction.Honest T E A) :
    reaction.after.Reports T E A := by
  have hfold : ∀ (calls : List Call) dev, (∀ call ∈ calls, Voiced T E A call) →
      dev.Reports T E A → (calls.foldl (Device.perform reaction.issuer) dev).Reports T E A := by
    intro calls
    induction calls with
    | nil => exact fun _ _ hdev => hdev
    | cons call calls ih =>
      intro dev hcalls hdev
      exact ih _ (fun c hc => hcalls c (List.mem_cons_of_mem _ hc))
        (hdev.perform (hcalls call List.mem_cons_self))
  unfold Reaction.after
  cases hc : reaction.calls with
  | error trap => exact h.device
  | ok calls => exact hfold calls _ (h.calls calls hc) h.device

namespace Device

variable {dev : Device} {t : Tap} {reaction : Reaction} {issuer : Option ℕ} {call : Call}
  {answer : Answer}

/-- The stack puts up nothing but the question of the profile screen. -/
theorem honest_tapScreen (h : dev.Reports T E A) (ht : T t) (idle : dev.Idle)
    (hs : dev.tapScreen t = some reaction) : reaction.Honest T E A := by
  have hno : ∀ p, p ∉ dev.window.covers := fun p => by simp [idle.1]
  have hnone : ∀ {window : NavigationWindow.Window Screen Cover}, window.covers = [] →
      (dev.setWindow window).Reports T E A := fun hw p hp => by simp [hw] at hp
  cases tapScreen_effect idle hs with
  | pushed issuer screen _ => exact ⟨hnone idle.1, by simp⟩
  | popped _ stack => exact ⟨hnone idle.1, by simp⟩
  | reappeared _ stack => exact ⟨hnone idle.1, by simp⟩
  | edited vc' _ stack => exact ⟨hnone idle.1, by simp⟩
  | loggedOut _ stack =>
    refine ⟨h, fun calls hc call hmem => ?_⟩
    obtain rfl := Except.ok.inj hc
    rcases List.mem_pair.mp hmem with rfl | rfl <;> trivial
  | updated _ stack =>
    refine ⟨h, fun calls hc call hmem => ?_⟩
    obtain ⟨uid, -, rfl⟩ := UserProfileVC.update_eq_ok.mp hc
    rcases List.mem_pair.mp hmem with rfl | rfl <;> trivial
  | asked _ stack =>
    refine ⟨h, fun calls hc call hmem => ?_⟩
    obtain rfl := Except.ok.inj hc
    obtain rfl := List.mem_singleton.mp hmem
    exact .question ht
  | confirmed covers kind => exact absurd (covers ▸ List.mem_cons_self) (hno _)
  | closed covers kind => exact absurd (covers ▸ List.mem_cons_self) (hno _)
  | resetEdited vc covers => exact absurd (covers ▸ List.mem_cons_self) (hno _)
  | called covers kind => exact absurd (covers ▸ List.mem_cons_self) (hno _)

theorem Reports.dismissed (h : dev.Reports T E A) (cover : Presented Cover) :
    (dev.dismissed cover).Reports T E A :=
  h.of_subset (Window.dismiss_suffix Cover.hides dev.window (some cover.id)).subset

/-- A form for the address is replaced by one with a text that was typed, or none. -/
theorem Reports.setForgetPassword (h : dev.Reports T E A) {vc : ForgetPasswordVC}
    (hvc : vc.userEmail = "" ∨ T (.editResetEmail vc.userEmail)) (id : Option ℕ) :
    (dev.setWindow (dev.window.modifyCover id (Cover.setForgetPassword vc))).Reports T E A := by
  intro p hp
  obtain ⟨q, hq, rfl⟩ := List.mem_map.mp hp
  split_ifs
  · exact (h q hq).setForgetPassword hvc
  · exact h q hq

theorem honest_loginButtonAction {email password : String} {id : Option ℕ}
    (h : dev.Reports T E A) (ht : T (.loginButtonAction email password)) :
    Reaction.Honest T E A
      ⟨dev, id, .ok (SignupAndLoginVC.loginButtonAction email password)⟩ := by
  refine ⟨h, fun calls hc call hmem => ?_⟩
  obtain rfl := Except.ok.inj hc
  unfold SignupAndLoginVC.loginButtonAction at hmem
  split_ifs at hmem with hempty
  · subst hempty
    obtain rfl := List.mem_singleton.mp hmem
    exact .loginEmpty ht
  · obtain rfl := List.mem_singleton.mp hmem
    exact ht

theorem honest_signupButtonAction {email password confirmPassword userName : String}
    {id : Option ℕ} (h : dev.Reports T E A)
    (ht : T (.signupButtonAction email password confirmPassword userName)) :
    Reaction.Honest T E A ⟨dev, id,
      .ok (SignupAndLoginVC.signupButtonAction email password confirmPassword userName)⟩ := by
  refine ⟨h, fun calls hc call hmem => ?_⟩
  obtain rfl := Except.ok.inj hc
  unfold SignupAndLoginVC.signupButtonAction at hmem
  split_ifs at hmem with hempty hdiffer
  · obtain rfl := List.mem_singleton.mp hmem
    exact .signupEmpty ht hempty
  · obtain rfl := List.mem_singleton.mp hmem
    exact .noMatch ht hdiffer
  · obtain rfl := List.mem_singleton.mp hmem
    trivial

theorem honest_sendRestPasswordLink {vc : ForgetPasswordVC} {id : Option ℕ}
    (h : dev.Reports T E A) (hempty : vc.userEmail = "" → E)
    (hvc : Reported T E A (.forgetPassword vc)) :
    Reaction.Honest T E A ⟨dev, id, .ok vc.sendRestPasswordLink⟩ := by
  refine ⟨h, fun calls hc call hmem => ?_⟩
  obtain rfl := Except.ok.inj hc
  unfold ForgetPasswordVC.sendRestPasswordLink at hmem
  split_ifs at hmem with hnamed
  · obtain rfl := List.mem_singleton.mp hmem
    cases hvc with
    | forgetPassword typed => exact ⟨hnamed, typed.resolve_left hnamed⟩
  · obtain rfl := List.mem_singleton.mp hmem
    exact .resetEmpty (hempty (not_not.mp hnamed))

/-- A button of a presented controller puts up what its own check says. -/
theorem honest_tapCover {cover : Presented Cover} {below : List (Presented Cover)}
    (h : dev.Reports T E A) (ht : T t) (hE : t = .sendRestPasswordLink → dev.AddressEmpty → E)
    (covers : dev.window.covers = cover :: below)
    (hs : dev.tapCover cover t = some reaction) : reaction.Honest T E A := by
  have hcover := h cover (by simp [covers])
  unfold tapCover at hs
  split at hs
  case h_1 => exact Option.some.inj hs ▸ ⟨h.dismissed cover, by simp⟩
  case h_2 =>
    refine Option.some.inj hs ▸ ⟨h.dismissed cover, fun calls hc call hmem => ?_⟩
    obtain ⟨uid, -, rfl⟩ := UserProfileVC.deleteAccountYes_eq_ok.mp hc
    rcases List.mem_pair.mp hmem with rfl | rfl <;> trivial
  case h_3 => exact Option.some.inj hs ▸ ⟨h.dismissed cover, by simp⟩
  case h_4 => exact Option.some.inj hs ▸ honest_loginButtonAction h ht
  case h_5 => exact Option.some.inj hs ▸ honest_signupButtonAction h ht
  case h_6 =>
    refine Option.some.inj hs ▸ ⟨h, fun calls hc call hmem => ?_⟩
    obtain rfl := Except.ok.inj hc
    obtain rfl := List.mem_singleton.mp hmem
    exact .forgetPassword (Or.inl rfl)
  case h_7 text _ =>
    exact Option.some.inj hs ▸ ⟨h.setForgetPassword (Or.inr ht) _, by simp⟩
  case h_8 vc hk =>
    exact Option.some.inj hs ▸ honest_sendRestPasswordLink h
      (fun hempty => hE rfl ⟨cover, below, vc, covers, hk, hempty⟩) (hk ▸ hcover)
  case h_9 => exact Option.some.inj hs ▸ ⟨h.dismissed cover, by simp⟩
  case h_10 => exact absurd hs (by simp)

theorem Reports.tap (h : dev.Reports T E A) (ht : T t)
    (hE : t = .sendRestPasswordLink → dev.AddressEmpty → E) (hs : dev.tap t = some reaction) :
    reaction.Honest T E A := by
  rcases (tap_cases hs).2 with ⟨idle, hs⟩ | ⟨cover, below, covers, hs⟩
  · exact honest_tapScreen h ht idle hs
  · exact honest_tapCover h ht hE covers hs

theorem Reports.viewDidAppear (h : dev.Reports T E A) (ha : dev.viewDidAppear = some reaction) :
    reaction.Honest T E A := by
  obtain ⟨-, -, rfl⟩ := viewDidAppear_eq_some.mp ha
  refine ⟨h.of_subset (List.Subset.refl _), fun calls hc call hmem => ?_⟩
  have happearance := appearance_call hc hmem
  generalize dev.appearance.1 = issuer at happearance
  cases happearance <;> trivial

theorem honest_signInDone {email password : String} {id : Option ℕ} (h : dev.Reports T E A)
    (hcall : Voiced T E A (.signIn email password))
    (hanswer : Explained A (.signIn email password) answer) :
    Reaction.Honest T E A ⟨dev, id, .ok (SignupAndLoginVC.signInDone answer.isError)⟩ := by
  refine ⟨h, fun calls hc call hmem => ?_⟩
  obtain rfl := Except.ok.inj hc
  cases answer with
  | failed =>
    obtain rfl := List.mem_singleton.mp hmem
    exact .loginFailed hcall hanswer
  | _ => exact List.mem_singleton.mp hmem ▸ trivial

theorem Reports.forgetPasswordScreen (h : dev.Reports T E A) (issuer : Option ℕ) :
    (dev.forgetPasswordScreen issuer).userEmail = "" ∨
      T (.editResetEmail (dev.forgetPasswordScreen issuer).userEmail) := by
  unfold Device.forgetPasswordScreen
  split
  · rename_i id presenter vc hfind
    cases h _ (List.mem_of_find?_eq_some hfind) with
    | forgetPassword typed => exact typed
  · exact Or.inl rfl

theorem honest_sendPasswordResetDone {email : String} (h : dev.Reports T E A)
    (hcall : Voiced T E A (.sendPasswordReset email))
    (hanswer : Explained A (.sendPasswordReset email) answer) :
    (dev.complete issuer (.sendPasswordReset email) answer).Honest T E A := by
  obtain ⟨hnamed, htyped⟩ := hcall
  have hform := h.forgetPasswordScreen issuer
  cases answer with
  | failed =>
    refine ⟨h.setForgetPassword hform issuer, fun calls hc call hmem => ?_⟩
    obtain rfl := Except.ok.inj hc
    exact List.mem_singleton.mp hmem ▸ .resetFailed hnamed htyped hanswer
  | _ =>
    refine ⟨h.setForgetPassword (Or.inl rfl) issuer, fun calls hc call hmem => ?_⟩
    obtain rfl := Except.ok.inj hc
    exact List.mem_singleton.mp hmem ▸ .resetSent hnamed htyped hanswer

/-- The completion handlers of a log-in and of a reset put up what the answer was. -/
theorem Reports.complete (h : dev.Reports T E A) (hcall : Voiced T E A call)
    (hanswer : Explained A call answer) : (dev.complete issuer call answer).Honest T E A := by
  by_cases hreset : ∃ email, call = .sendPasswordReset email
  · obtain ⟨email, rfl⟩ := hreset
    exact honest_sendPasswordResetDone h hcall hanswer
  by_cases hlogin : ∃ email password, call = .signIn email password
  · obtain ⟨email, password, rfl⟩ := hlogin
    exact honest_signInDone h hcall hanswer
  -- the other handlers put up nothing
  generalize hr : dev.complete issuer call answer = reaction
  cases hr ▸ complete_effect dev issuer call answer with
  | trapped decode => exact ⟨h, by simp⟩
  | loaded screen decode => exact ⟨h.of_subset (List.Subset.refl _), by simp⟩
  | signedUp email password userName uid =>
    refine ⟨h, fun calls hc call hmem => ?_⟩
    obtain rfl := Except.ok.inj hc
    rcases List.mem_pair.mp hmem with rfl | rfl <;> trivial
  | signedIn email password _ => exact absurd ⟨email, password, rfl⟩ hlogin
  | signInFailed email password _ => exact absurd ⟨email, password, rfl⟩ hlogin
  | deleted uid _ =>
    refine ⟨h, fun calls hc call hmem => ?_⟩
    obtain rfl := Except.ok.inj hc
    exact List.mem_singleton.mp hmem ▸ trivial
  | resetAnswered email title message vc => exact absurd ⟨email, rfl⟩ hreset
  | nothing => exact ⟨h, by simp⟩

end Device

namespace AppSystem
open TransitionRuns

variable {normalise : String → String} {load : String → Option (Option FirebaseValues.Snapshot)}
  {stores st st' : Stores} {session : ℕ → Option String}
  {w w' : World} {a : Act} {as : List Act} {d : ℕ} {reaction : Reaction} {call : Call}
  {outcome : Outcome} {answer : Answer} {Ts : ℕ → Tap → Prop} {Es : ℕ → Prop}
  {As : ℕ → Call → Outcome → Prop}

/-- What is in sight on the devices, what was asked and what was answered goes back to the taps
and the outcomes on the device. -/
structure Accountable (Ts : ℕ → Tap → Prop) (Es : ℕ → Prop) (As : ℕ → Call → Outcome → Prop)
    (w : World) : Prop where
  covers : ∀ d, (w.devices d).Reports (Ts d) (Es d) (As d)
  calls : ∀ r ∈ w.requests, Voiced (Ts r.device) (Es r.device) (As r.device) r.call
  answers : ∀ r ∈ w.requests, ∀ answer, r.answer = some answer →
    Explained (As r.device) r.call answer

/-- The tap, or the outcome of the request, is among those on the device. -/
def Recorded (Ts : ℕ → Tap → Prop) (Es : ℕ → Prop) (As : ℕ → Call → Outcome → Prop) (w : World) :
    Act → Prop
  | .tap d t => Ts d t ∧ (t = .sendRestPasswordLink → (w.devices d).AddressEmpty → Es d)
  | .serve i outcome => ∀ request, w.requests[i]? = some request →
      As request.device request.call outcome
  | _ => True

theorem explained_of_effect (serve : Stores.Effect normalise load st call outcome answer st')
    (hA : A call outcome) : Explained A call answer := by
  cases serve with
  | resetSent email => exact hA
  | failed no_load =>
    cases call with
    | signIn email password => exact hA
    | sendPasswordReset email => exact hA
    | _ => trivial
  | _ => trivial

theorem Accountable.follow (h : Accountable Ts Es As w) {requests : List Request}
    (hsub : requests ⊆ w.requests) (hr : reaction.Honest (Ts d) (Es d) (As d)) :
    Accountable Ts Es As ({ w with requests := requests }.follow d reaction) where
  covers :=
    (Function.forall_update_iff w.devices fun d dev => dev.Reports (Ts d) (Es d) (As d)).mpr
      ⟨hr.after, fun e _ => h.covers e⟩
  calls := by
    intro r hmem
    rcases List.mem_append.mp hmem with hmem | hmem
    · exact h.calls r (hsub hmem)
    · obtain ⟨calls, call, hc, hcall, -, rfl⟩ := mem_made.mp hmem
      exact hr.calls calls hc call hcall
  answers := by
    intro r hmem answer ha
    rcases List.mem_append.mp hmem with hmem | hmem
    · exact h.answers r (hsub hmem) answer ha
    · obtain ⟨calls, call, -, -, -, rfl⟩ := mem_made.mp hmem
      simp at ha

theorem accountable_step (h : Accountable Ts Es As w) (hrec : Recorded Ts Es As w a)
    (hs : step normalise w a = some w') : Accountable Ts Es As w' := by
  cases step_effect hs with
  | @tapped e t reaction tapped =>
    exact h.follow (List.Subset.refl _) ((h.covers e).tap hrec.1 hrec.2 tapped)
  | @appeared e reaction appeared =>
    exact h.follow (List.Subset.refl _) ((h.covers e).viewDidAppear appeared)
  | @served before after request outcome answer stores at_i waiting serve =>
    have hmem : request ∈ w.requests := by simp [at_i]
    constructor
    case covers =>
      refine (Function.forall_update_iff w.devices fun d dev =>
        dev.Reports (Ts d) (Es d) (As d)).mpr ⟨(h.covers _).of_subset ?_, fun e _ => h.covers e⟩
      rw [Device.served_window]
      exact List.Subset.refl _
    case calls =>
      intro r hr
      rcases mem_answered hr with hr | rfl
      · exact h.calls r (at_i ▸ hr)
      · exact h.calls request hmem
    case answers =>
      intro r hr answer' ha
      rcases mem_answered hr with hr | rfl
      · exact h.answers r (at_i ▸ hr) answer' ha
      · obtain rfl := Option.some.inj ha
        exact explained_of_effect serve (hrec request (by simp [at_i]))
  | @completed before after request answer at_i answered running =>
    have hmem : request ∈ w.requests := by simp [at_i]
    exact h.follow (by rw [at_i]; exact remaining_subset)
      ((h.covers request.device).complete (h.calls request hmem)
        (h.answers request hmem answer answered))
  | signedOut e =>
    refine ⟨?_, h.calls, h.answers⟩
    exact (Function.forall_update_iff w.devices fun d dev => dev.Reports (Ts d) (Es d) (As d)).mpr
      ⟨(h.covers e).of_subset (List.Subset.refl _), fun e _ => h.covers e⟩

/-- In the run, a request with this call was served for the device with this outcome. -/
def Outcomes (normalise : String → String) (w₀ : World) (as : List Act) (d : ℕ) (call : Call)
    (outcome : Outcome) : Prop :=
  ∃ i, Taken (step normalise) w₀ as (.serve i outcome) fun s =>
    ∃ request, s.requests[i]? = some request ∧ request.device = d ∧ request.call = call

/-- In the run, Send was tapped on the device while the field of the address was empty. -/
def EmptySend (normalise : String → String) (w₀ : World) (as : List Act) (d : ℕ) : Prop :=
  Taken (step normalise) w₀ as (.tap d .sendRestPasswordLink) fun s =>
    (s.devices d).AddressEmpty

theorem recorded_along (normalise : String → String) (w₀ : World) (as : List Act) :
    Along (step normalise) w₀ (Recorded (fun d t => .tap d t ∈ as) (EmptySend normalise w₀ as)
      (Outcomes normalise w₀ as)) as := by
  intro pre a post s heq hr
  cases a with
  | tap d t =>
    refine ⟨heq ▸ List.mem_append_right _ List.mem_cons_self, ?_⟩
    rintro rfl hempty
    exact ⟨pre, post, s, heq, hr, hempty⟩
  | serve i outcome =>
    intro request hi
    exact ⟨i, pre, post, s, heq, hr, request, hi, rfl, rfl⟩
  | _ => trivial

/-- Each alert in sight on a device, in every run, goes back to a tap on the device that its
check turns down, or to a request with the texts typed there that came back with an error, or
without one where it says so; the question goes back to a tap on delete, and the address in the
form was typed there or is empty. -/
theorem alerts_report (h : Run (step normalise) (initial stores session) as w) (d : ℕ)
    {p : Presented Cover} (hp : p ∈ (w.devices d).window.covers) :
    Reported (fun t => .tap d t ∈ as) (EmptySend normalise (initial stores session) as d)
      (Outcomes normalise (initial stores session) as d) p.content := by
  have hstart : Accountable (fun d t => .tap d t ∈ as)
      (EmptySend normalise (initial stores session) as)
      (Outcomes normalise (initial stores session) as) (initial stores session) := by
    constructor
    case covers => exact fun d p hp => absurd hp (by simp [initial, Device.launched])
    all_goals exact fun r hr => absurd hr (by simp [initial])
  have hw := h.invariant_along (recorded_along normalise (initial stores session) as) hstart
    fun hI hrec hs => accountable_step hI hrec hs
  exact hw.covers d p hp

/-- A log-in that comes back with an error. -/
def failedLogIn : List Act :=
  [.viewDidAppear 0, .tap 0 (.loginButtonAction "e" "p"), .serve 0 .failed, .complete 0]

theorem alerts_report_failedLogIn : ∃ w p, Run (step id) firstLaunch failedLogIn w ∧
    p ∈ (w.devices 0).window.covers ∧
      p.content = .alert "Error" "User name or Password is wrong" ∧
      Reported (fun t => .tap 0 t ∈ failedLogIn) (EmptySend id firstLaunch failedLogIn 0)
        (Outcomes id firstLaunch failedLogIn 0) p.content := by
  have hexec : (exec (step id) firstLaunch failedLogIn).map
      (fun w => (w.devices 0).window.covers.head?) =
      some (some ⟨1, some 0, .alert "Error" "User name or Password is wrong"⟩) := rfl
  obtain ⟨w, hw, hhead⟩ := run_of_exec_map hexec
  have hp := List.mem_of_head? hhead
  exact ⟨w, _, hw, hp, rfl, alerts_report hw 0 hp⟩

end AppSystem

end LoopChat
