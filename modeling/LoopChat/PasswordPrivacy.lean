import LoopChat.AppSystem

/-!
# What becomes of the passwords

A password that is typed is compared with the empty one, at a sign-up also with the one typed
below it, and is then handed to Auth. Renaming the passwords, each one everywhere by the same
other one and the empty one by itself, is a simulation of the app: it changes nothing on any
screen, in any store and in any answer. Swift compares strings up to canonical equivalence, so
the passwords are taken from one Unicode normal form, in which only equal strings are equivalent.
-/
namespace LoopChat
open FirebaseValues NavigationWindow TransitionRuns

variable (ρ : String → String)

def Call.mask : Call → Call
  | .createUser email password userName => .createUser email (ρ password) userName
  | .signIn email password => .signIn email (ρ password)
  | call => call

def Tap.mask : Tap → Tap
  | .loginButtonAction email password => .loginButtonAction email (ρ password)
  | .signupButtonAction email password confirmPassword userName =>
    .signupButtonAction email (ρ password) (ρ confirmPassword) userName
  | tap => tap

def Reaction.mask (reaction : Reaction) : Reaction :=
  { reaction with calls := reaction.calls.map (List.map (Call.mask ρ)) }

/-- Two passwords of the normal form are told apart after the renaming as before, and so is the
empty one. -/
structure Renames (normal : Set String) (ρ : String → String) : Prop where
  mapsTo : Set.MapsTo ρ normal normal
  injOn : Set.InjOn ρ normal
  empty_mem : "" ∈ normal
  empty : ρ "" = ""

/-- The passwords typed are of the normal form. -/
def Tap.TypesIn (normal : Set String) : Tap → Prop
  | .loginButtonAction _ password => password ∈ normal
  | .signupButtonAction _ password confirmPassword _ =>
    password ∈ normal ∧ confirmPassword ∈ normal
  | _ => True

variable {ρ} {normal : Set String}

theorem Renames.eq_empty (h : Renames normal ρ) {password : String} (hp : password ∈ normal) :
    ρ password = "" ↔ password = "" := by
  constructor
  · intro hempty
    exact h.injOn hp h.empty_mem (hempty.trans h.empty.symm)
  · rintro rfl
    exact h.empty

theorem Renames.typesIn_mask (h : Renames normal ρ) {tap : Tap} (ht : tap.TypesIn normal) :
    (tap.mask ρ).TypesIn normal := by
  cases tap with
  | loginButtonAction email password => exact h.mapsTo ht
  | signupButtonAction email password confirmPassword userName =>
    exact ⟨h.mapsTo ht.1, h.mapsTo ht.2⟩
  | _ => trivial

@[simp] theorem Call.isRequest_mask (call : Call) : (call.mask ρ).isRequest = call.isRequest := by
  cases call <;> rfl

namespace SignupAndLoginVC

theorem loginButtonAction_mask (h : Renames normal ρ) (email : String) {password : String}
    (hp : password ∈ normal) : loginButtonAction email (ρ password) =
      (loginButtonAction email password).map (Call.mask ρ) := by
  unfold loginButtonAction
  rw [if_congr (h.eq_empty hp) rfl rfl]
  split_ifs <;> rfl

theorem signupButtonAction_mask (h : Renames normal ρ) (email userName : String)
    {password confirmPassword : String} (hp : password ∈ normal) (hc : confirmPassword ∈ normal) :
    signupButtonAction email (ρ password) (ρ confirmPassword) userName =
      (signupButtonAction email password confirmPassword userName).map (Call.mask ρ) := by
  unfold signupButtonAction
  by_cases hempty : email = "" ∨ password = ""
  · rw [if_pos hempty, if_pos ((or_congr_right (h.eq_empty hp)).mpr hempty)]
    rfl
  · rw [if_neg hempty, if_neg (mt (or_congr_right (h.eq_empty hp)).mp hempty)]
    by_cases hsame : password = confirmPassword
    · rw [if_neg (not_not.mpr hsame), if_neg (not_not.mpr (congrArg ρ hsame))]
      rfl
    · rw [if_pos hsame, if_pos fun heq => hsame (h.injOn hp hc heq)]
      rfl

end SignupAndLoginVC

namespace Device

variable (dev : Device) (issuer : Option ℕ)

theorem update_mask (vc : UserProfileVC) (currentUser : Option String) :
    (vc.update currentUser).map (List.map (Call.mask ρ)) = vc.update currentUser := by
  cases currentUser <;> rfl

theorem deleteAccountYes_mask (currentUser : Option String) :
    (UserProfileVC.deleteAccountYes currentUser).map (List.map (Call.mask ρ)) =
      UserProfileVC.deleteAccountYes currentUser := by
  cases currentUser <;> rfl

theorem tapScreen_mask (tap : Tap) :
    dev.tapScreen (tap.mask ρ) = (dev.tapScreen tap).map (Reaction.mask ρ) := by
  unfold tapScreen
  cases dev.window.stack with
  | nil => cases tap <;> rfl
  | cons top below =>
    obtain ⟨id, screen⟩ := top
    cases screen with
    | profile vc =>
      cases tap
      case updateUserInfo => simp [Tap.mask, Reaction.mask, update_mask]
      all_goals rfl
    | _ => cases tap <;> rfl

theorem tapCover_mask (h : Renames normal ρ) (cover : Presented Cover) {tap : Tap}
    (ht : tap.TypesIn normal) :
    dev.tapCover cover (tap.mask ρ) = (dev.tapCover cover tap).map (Reaction.mask ρ) := by
  obtain ⟨id, presenter, content⟩ := cover
  cases content with
  | login =>
    cases tap
    case loginButtonAction email password =>
      simp only [tapCover, Tap.mask, SignupAndLoginVC.loginButtonAction_mask h email ht]
      rfl
    case signupButtonAction email password confirmPassword userName =>
      simp only [tapCover, Tap.mask,
        SignupAndLoginVC.signupButtonAction_mask h email userName ht.1 ht.2]
      rfl
    all_goals rfl
  | confirm title message =>
    cases tap
    case yes => simp [tapCover, Tap.mask, Reaction.mask, deleteAccountYes_mask]
    all_goals rfl
  | alert title message => cases tap <;> rfl
  | forgetPassword vc =>
    cases tap
    case sendRestPasswordLink =>
      simp only [tapCover, Tap.mask, ForgetPasswordVC.sendRestPasswordLink]
      split_ifs <;> rfl
    all_goals rfl

theorem tap_mask (h : Renames normal ρ) {tap : Tap} (ht : tap.TypesIn normal) :
    dev.tap (tap.mask ρ) = (dev.tap tap).map (Reaction.mask ρ) := by
  unfold Device.tap
  by_cases htrap : dev.trapped.isSome = true
  · simp [htrap]
  · rw [if_neg htrap, if_neg htrap]
    cases dev.window.covers with
    | nil =>
      by_cases ha : dev.window.appearing = true
      · simp [ha]
      · simpa [ha] using dev.tapScreen_mask tap
    | cons cover below => exact dev.tapCover_mask h cover ht

theorem perform_mask (call : Call) :
    dev.perform issuer (call.mask ρ) = dev.perform issuer call := by
  cases call <;> rfl

theorem foldl_perform_mask (calls : List Call) :
    (calls.map (Call.mask ρ)).foldl (perform issuer) dev = calls.foldl (perform issuer) dev := by
  induction calls generalizing dev with
  | nil => rfl
  | cons call calls ih =>
    rw [List.map_cons, List.foldl_cons, List.foldl_cons, perform_mask]
    exact ih _

/-- Auth is told the password; the device is not. -/
theorem served_mask (call : Call) (answer : Answer) :
    dev.served (call.mask ρ) answer = dev.served call answer := by
  cases call <;> cases answer <;> rfl

theorem complete_mask (call : Call) (answer : Answer) :
    dev.complete issuer (call.mask ρ) answer = dev.complete issuer call answer := by
  cases call <;> rfl

/-- No completion handler has a password to hand on. -/
theorem mask_complete {call : Call} {answer : Answer} {reaction : Reaction}
    (h : CompleteEffect dev issuer call answer reaction) : reaction.mask ρ = reaction := by
  cases h <;> rfl

theorem mask_viewDidAppear {reaction : Reaction} (h : dev.viewDidAppear = some reaction) :
    reaction.mask ρ = reaction := by
  obtain ⟨-, -, rfl⟩ := viewDidAppear_eq_some.mp h
  have hcalls : dev.appearance.2.map (List.map (Call.mask ρ)) = dev.appearance.2 := by
    unfold appearance
    split
    · cases dev.currentUser <;> rfl
    · cases dev.currentUser <;> rfl
    · rename_i vc _ _
      cases dev.currentUser with
      | none => rfl
      | some userid => cases hc : vc.community <;> simp [ChatScreentVC.viewDidAppear,
          ChatScreentVC.getMessage, hc] <;> rfl
    · rfl
  rw [Reaction.mask, hcalls]

end Device

theorem Reaction.after_mask (reaction : Reaction) : (reaction.mask ρ).after = reaction.after := by
  obtain ⟨dev, issuer, calls⟩ := reaction
  cases calls with
  | error trap => rfl
  | ok calls => exact dev.foldl_perform_mask issuer calls

theorem Stores.serve_mask (normalise : String → String) (load : String → Option (Option Snapshot))
    (st : Stores) (call : Call) (outcome : Outcome) :
    st.serve normalise load (call.mask ρ) outcome = st.serve normalise load call outcome := by
  cases call <;> cases outcome <;> rfl

namespace AppSystem

def Request.mask (ρ : String → String) (request : Request) : Request :=
  { request with call := request.call.mask ρ }

def World.mask (ρ : String → String) (w : World) : World :=
  { w with
    requests := w.requests.map (Request.mask ρ)
    served := w.served.map (Prod.map (Call.mask ρ) id) }

def Act.mask (ρ : String → String) : Act → Act
  | .tap d t => .tap d (t.mask ρ)
  | a => a

def Act.TypesIn (normal : Set String) : Act → Prop
  | .tap _ t => t.TypesIn normal
  | _ => True

variable {normalise : String → String} (w : World)

theorem made_mask (n d : ℕ) (reaction : Reaction) :
    made n d (reaction.mask ρ) = (made n d reaction).map (Request.mask ρ) := by
  obtain ⟨dev, issuer, calls⟩ := reaction
  cases calls with
  | error trap => rfl
  | ok calls =>
    have hrequest : Call.isRequest ∘ Call.mask ρ = Call.isRequest :=
      funext fun call => call.isRequest_mask
    simp [made, Reaction.mask, Except.map, List.filter_map, hrequest, Request.mask,
      Function.comp_def]

theorem follow_mask (d : ℕ) (reaction : Reaction) :
    (w.mask ρ).follow d (reaction.mask ρ) = (w.follow d reaction).mask ρ := by
  simp [World.follow, World.mask, made_mask, Reaction.after_mask]

/-- No document has a password in it. -/
@[simp] theorem load_mask (d : ℕ) (outcome : Outcome) :
    (w.mask ρ).load d outcome = w.load d outcome := by
  have hwrite : ∀ (uid : String) (call : Call),
      documentWrite uid (call.mask ρ) = documentWrite uid call := by
    intro uid call
    cases call <;> rfl
  have hown : ∀ uid, (w.mask ρ).ownWrites d uid = w.ownWrites d uid := by
    intro uid
    simp [World.ownWrites, World.mask, List.filter_map, List.filterMap_map, Request.mask,
      Function.comp_def, hwrite]
  funext uid
  cases outcome <;> simp only [World.load, hown] <;> rfl

/-- Renaming the passwords and stepping commute. -/
theorem step_mask (h : Renames normal ρ) {a : Act} (ha : a.TypesIn normal) :
    step normalise (w.mask ρ) (a.mask ρ) = (step normalise w a).map (World.mask ρ) := by
  cases a with
  | tap d tap =>
    change ((w.devices d).tap (tap.mask ρ)).map _ = _
    rw [Device.tap_mask _ h ha, step, Option.map_map, Option.map_map]
    exact congrArg (Option.map · _) (funext fun reaction => follow_mask w d reaction)
  | viewDidAppear d =>
    cases ha : (w.devices d).viewDidAppear with
    | none => simp [step, Act.mask, World.mask, ha]
    | some reaction =>
      have hfollow := follow_mask (ρ := ρ) w d reaction
      rw [Device.mask_viewDidAppear _ ha] at hfollow
      simpa [step, Act.mask, World.mask, ha] using hfollow
  | serve i outcome =>
    cases hr : w.requests[i]? with
    | none => simp [step, Act.mask, World.mask, hr]
    | some request =>
      have hserve : w.stores.serve normalise ((w.mask ρ).load request.device outcome)
          (request.call.mask ρ) outcome =
          w.stores.serve normalise (w.load request.device outcome) request.call outcome := by
        rw [load_mask, Stores.serve_mask]
      simp only [World.mask] at hserve
      cases ha : request.answer with
      | some answer => simp [step, Act.mask, World.mask, Request.mask, hr, ha, Option.filter_some]
      | none =>
        cases hs : w.stores.serve normalise (w.load request.device outcome) request.call
          outcome with
        | none =>
          simp [step, Act.mask, World.mask, Request.mask, hr, ha, Option.filter_some, hserve, hs]
        | some served =>
          simp [step, Act.mask, World.mask, Request.mask, hr, ha, Option.filter_some, hserve, hs,
            Device.served_mask]
  | complete i =>
    cases hr : w.requests[i]? with
    | none => simp [step, Act.mask, World.mask, hr]
    | some request =>
      cases ht : (w.devices request.device).trapped with
      | some trap => simp [step, Act.mask, World.mask, Request.mask, hr, ht, Option.filter_some]
      | none =>
        cases ha : request.answer with
        | none =>
          simp [step, Act.mask, World.mask, Request.mask, hr, ht, ha, Option.filter_some]
        | some answer =>
          have hfollow := follow_mask (ρ := ρ) { w with requests := w.requests.eraseIdx i }
            request.device ((w.devices request.device).complete request.issuer request.call answer)
          rw [Device.mask_complete _ _ (Device.complete_effect _ _ _ _)] at hfollow
          simpa [step, Act.mask, World.mask, Request.mask, hr, ht, ha, Option.filter_some,
            Device.complete_mask, List.eraseIdx_map] using hfollow
  | signOutByForce d => rfl

variable {w}

theorem run_mask (h : Renames normal ρ) {w₀ : World} {as : List Act}
    (hrun : Run (step normalise) w₀ as w) (htyped : ∀ a ∈ as, a.TypesIn normal) :
    Run (step normalise) (w₀.mask ρ) (as.map (Act.mask ρ)) (w.mask ρ) := by
  induction hrun with
  | nil => exact Run.nil
  | @snoc as w a w' prior next ih =>
    rw [List.map_append]
    have hstep : step normalise (w.mask ρ) (a.mask ρ) = some (w'.mask ρ) := by
      rw [step_mask w h (htyped a (by simp)), next, Option.map_some]
    exact (ih fun b hb => htyped b (List.mem_append_left _ hb)).snoc hstep

/-- Whatever passwords of one normal form are typed, in any order of steps on any number of
devices: with other passwords of this form in their place the app goes through the same states of
the stores and the devices and makes the same requests, but for the passwords in those to Auth. -/
theorem password_privacy (h : Renames normal ρ) {stores : Stores} {session : ℕ → Option String}
    {as : List Act} (htyped : ∀ a ∈ as, a.TypesIn normal)
    (hrun : Run (step normalise) (initial stores session) as w) :
    (∀ a ∈ as.map (Act.mask ρ), a.TypesIn normal) ∧
    ∃ w', Run (step normalise) (initial stores session) (as.map (Act.mask ρ)) w' ∧
      w'.stores = w.stores ∧ w'.devices = w.devices ∧
      w'.requests = w.requests.map (Request.mask ρ) ∧
      w'.served = w.served.map (Prod.map (Call.mask ρ) id) := by
  refine ⟨fun b hb => ?_, w.mask ρ, run_mask h hrun htyped, rfl, rfl, rfl, rfl⟩
  obtain ⟨a, ha, rfl⟩ := List.mem_map.mp hb
  cases a with
  | tap d t => exact h.typesIn_mask (htyped _ ha)
  | _ => trivial

theorem password_privacy_signUp : ∃ w', Run (step id) firstLaunch
    (signUp.map (Act.mask (Equiv.swap "p" "q"))) w' ∧ (w'.devices 0).currentUser = some "u" := by
  have hswap : Renames {"", "p", "q"} (Equiv.swap "p" "q") := by
    refine ⟨?_, (Equiv.swap "p" "q").injective.injOn, by simp,
      Equiv.swap_apply_of_ne_of_ne (by decide) (by decide)⟩
    rintro password (rfl | rfl | rfl)
    · simp [Equiv.swap_apply_of_ne_of_ne]
    · simp
    · simp
  have htyped : ∀ a ∈ signUp, a.TypesIn {"", "p", "q"} := by
    simp [signUp, Act.TypesIn, Tap.TypesIn]
  have hexec : (exec (step id) firstLaunch signUp).map (fun w => (w.devices 0).currentUser) =
      some (some "u") := rfl
  obtain ⟨w, hw, huser⟩ := run_of_exec_map hexec
  obtain ⟨-, w', hw', -, hdevices, -⟩ := password_privacy hswap htyped hw
  exact ⟨w', hw', by rw [hdevices, huser]⟩

end AppSystem

end LoopChat
