import LoopChat.TransitionRuns
import LoopChat.ProfileScreen

/-!
# Saves of one profile from several screens

Any number of profile screens, on any number of clients signed in to the account `uid`, load
its document, edit the two fields and save them. Firestore applies the saves in the order of
the taps; a client sees its own saves before that.
-/
namespace LoopChat.ProfileSaves
open FirebaseValues TransitionRuns

inductive Field
  | userName
  | email
  deriving DecidableEq, Repr

def Field.name : Field → String
  | .userName => "userName"
  | .email => "email"

/-- The text that the field shows. -/
def Field.text (vc : UserProfileVC) : Field → String
  | .userName => vc.profileUserName
  | .email => vc.profileEmail

def Field.edit (vc : UserProfileVC) (text : String) : Field → UserProfileVC
  | .userName => { vc with profileUserName := text }
  | .email => { vc with profileEmail := text }

structure Screen where
  client : ℕ
  vc : UserProfileVC
  deriving DecidableEq, Repr

/-- A request of `getUserData`; `handled` says that its completion has run. -/
structure Load where
  screen : ℕ
  answer : Option Snapshot
  handled : Bool

/-- `writes` are the saves that Firestore has still to apply, with their clients. -/
structure World where
  uid : String
  document : Fields
  screens : List Screen
  loads : List Load
  writes : List (ℕ × Fields)

inductive Act
  | opened (client : ℕ)
  | viewDidAppear (screen : ℕ)
  | edit (screen : ℕ) (field : Field) (text : String)
  | updateUserInfo (screen : ℕ)
  | applied
  | served (screen load : ℕ)
  | answered (screen load : ℕ)
  deriving DecidableEq, Repr

def initial (uid : String) (document : Fields) : World := ⟨uid, document, [], [], []⟩

def applyAll (document : Fields) (writes : List (ℕ × Fields)) : Fields :=
  writes.foldl (fun document write => document.merge write.2) document

/-- The document as a client sees it, its own saves included. -/
def World.seenBy (w : World) (client : ℕ) : Snapshot :=
  FirebaseValues.seenBy ((w.writes.filter fun write => write.1 == client).map fun write =>
    .update write.2) (some w.document)

/-- The document once every save is applied. -/
def World.latest (w : World) : Fields := applyAll w.document w.writes

/-- The email of Auth is the other request of a save; it is not followed here. -/
def perform (s client : ℕ) (w : World) : Call → World
  | .getDocument _ => { w with loads := w.loads ++ [⟨s, none, false⟩] }
  | .updateData _ fields => { w with writes := w.writes ++ [(client, fields)] }
  | _ => w

def World.setScreen (w : World) (s : ℕ) (screen : Screen) : World :=
  { w with screens := w.screens.set s screen }

def World.setLoad (w : World) (i : ℕ) (load : Load) : World :=
  { w with loads := w.loads.set i load }

def step (w : World) : Act → Option World
  | .opened client => some { w with screens := w.screens ++ [⟨client, {}⟩] }
  | .viewDidAppear s => do
    let screen ← w.screens[s]?
    let calls ← (UserProfileVC.viewDidAppear (some w.uid)).toOption
    return calls.foldl (perform s screen.client) w
  | .edit s field text => do
    let screen ← w.screens[s]?
    return w.setScreen s { screen with vc := field.edit screen.vc text }
  | .updateUserInfo s => do
    let screen ← w.screens[s]?
    let calls ← (screen.vc.update (some w.uid)).toOption
    return calls.foldl (perform s screen.client) w
  | .applied =>
    match w.writes with
    | [] => none
    | (_, fields) :: writes => some { w with document := w.document.merge fields, writes := writes }
  | .served s i => do
    let screen ← w.screens[s]?
    let load ← (w.loads[i]?).filter fun load => load.screen == s && load.answer.isNone
    return w.setLoad i { load with answer := some (w.seenBy screen.client) }
  | .answered s i => do
    let screen ← w.screens[s]?
    let load ← (w.loads[i]?).filter fun load => load.screen == s && !load.handled
    let snapshot ← load.answer
    let vc ← (screen.vc.getUserDataAnswer w.uid (some snapshot)).toOption
    return (w.setScreen s { screen with vc := vc }).setLoad i { load with handled := true }

/-- What each step does, with everything that was checked on the way. -/
inductive Effect (w : World) : Act → World → Prop
  | opened (client : ℕ) :
      Effect w (.opened client) { w with screens := w.screens ++ [⟨client, {}⟩] }
  | appeared {s : ℕ} {screen : Screen} (at_s : w.screens[s]? = some screen) :
      Effect w (.viewDidAppear s) { w with loads := w.loads ++ [⟨s, none, false⟩] }
  | edited {s : ℕ} {screen : Screen} (field : Field) (text : String)
      (at_s : w.screens[s]? = some screen) :
      Effect w (.edit s field text)
        (w.setScreen s { screen with vc := field.edit screen.vc text })
  | saved {s : ℕ} {screen : Screen} (at_s : w.screens[s]? = some screen) :
      Effect w (.updateUserInfo s) { w with
        writes := w.writes ++ [(screen.client,
          UserProfileVC.updateFields screen.vc.profileUserName screen.vc.profileEmail)] }
  | applied {client : ℕ} {fields : Fields} {writes : List (ℕ × Fields)}
      (first : w.writes = (client, fields) :: writes) :
      Effect w .applied { w with document := w.document.merge fields, writes := writes }
  | served {s i : ℕ} {screen : Screen} {load : Load} (at_s : w.screens[s]? = some screen)
      (at_i : w.loads[i]? = some load) (owner : load.screen = s) (waiting : load.answer = none) :
      Effect w (.served s i) (w.setLoad i { load with answer := some (w.seenBy screen.client) })
  | answered {s i : ℕ} {screen : Screen} {load : Load} {snapshot : Snapshot} {user : User}
      (at_s : w.screens[s]? = some screen) (at_i : w.loads[i]? = some load)
      (owner : load.screen = s) (unhandled : load.handled = false)
      (loaded : load.answer = some snapshot)
      (decode : decodeUser w.uid (some snapshot) = .ok user) :
      Effect w (.answered s i)
        ((w.setScreen s { screen with vc := screen.vc.showUser user }).setLoad i
          { load with handled := true })

theorem step_effect {w w' : World} {a : Act} (h : step w a = some w') : Effect w a w' := by
  cases a with
  | opened client => exact Option.some.inj h ▸ .opened client
  | viewDidAppear s =>
    simp only [step, Option.bind_eq_bind, Option.bind_eq_some_iff, Option.pure_def,
      Option.some.injEq] at h
    obtain ⟨screen, hs, calls, hc, rfl⟩ := h
    obtain rfl : [.getDocument w.uid] = calls := Option.some.inj hc
    exact .appeared hs
  | edit s field text =>
    simp only [step, Option.bind_eq_bind, Option.bind_eq_some_iff, Option.pure_def,
      Option.some.injEq] at h
    obtain ⟨screen, hs, rfl⟩ := h
    exact .edited field text hs
  | updateUserInfo s =>
    simp only [step, Option.bind_eq_bind, Option.bind_eq_some_iff, Option.pure_def,
      Option.some.injEq] at h
    obtain ⟨screen, hs, calls, hc, rfl⟩ := h
    obtain rfl := Option.some.inj hc
    exact .saved hs
  | applied =>
    simp only [step] at h
    split at h
    · exact absurd h (by simp)
    · rename_i client fields writes hw
      exact Option.some.inj h ▸ .applied hw
  | served s i =>
    simp only [step, Option.bind_eq_bind, Option.bind_eq_some_iff, Option.filter_eq_some_iff,
      Option.pure_def, Option.some.injEq, Bool.and_eq_true, beq_iff_eq,
      Option.isNone_iff_eq_none] at h
    obtain ⟨screen, hs, load, ⟨hi, ho, hw⟩, rfl⟩ := h
    exact .served hs hi ho hw
  | answered s i =>
    simp only [step, Option.bind_eq_bind, Option.bind_eq_some_iff, Option.filter_eq_some_iff,
      Option.pure_def, Option.some.injEq, Bool.and_eq_true, beq_iff_eq, Bool.not_eq_true'] at h
    obtain ⟨screen, hs, load, ⟨hi, ho, hh⟩, snapshot, hd, vc, hvc, rfl⟩ := h
    have hok : screen.vc.getUserDataAnswer w.uid (some snapshot) = .ok vc := by
      cases hv : screen.vc.getUserDataAnswer w.uid (some snapshot) with
      | error trap => simp [hv, Except.toOption] at hvc
      | ok vc' => simpa [hv, Except.toOption] using hvc
    obtain ⟨user, hdecode, rfl⟩ := UserProfileVC.getUserDataAnswer_eq_ok.mp hok
    exact .answered hs hi ho hh hd hdecode

end LoopChat.ProfileSaves
