import LoopChat.TransitionRuns
import LoopChat.ChildFeed
import LoopChat.CommunityScreen

/-!
# The community list of one client

One `CommunityVC` instance, the `CreateCommunityVC` instances pushed over it, and the
location `communities` of the database, to which other clients write as well.
-/
namespace LoopChat.CommunityListSystem
open FirebaseValues ChildFeed

/-- Closures on this device belong to the root screen or to the `i`-th creation form. -/
inductive Owner
  | root
  | form (i : ℕ)
  deriving DecidableEq, Repr

structure World where
  currentUser : Option String
  root : CommunityVC
  forms : List CreateCommunityVC
  communities : Feed String Value Unit Owner

inductive Act
  | signedIn (user : Option String)
  | viewDidAppear
  | pushCreateCommunity
  | edit (form : ℕ) (text : String)
  /-- A tap on Add; `key` is what `childByAutoId` answers. -/
  | createCommunityButton (form : ℕ) (key : String)
  /-- A child of `communities` written by another client. -/
  | otherClient (key : String) (value : Value)
  | accepted (write : ℕ)
  | rejected (write : ℕ)
  | childAdded (observer : ℕ) (key : String)

def initial (currentUser : Option String) : World := ⟨currentUser, {}, [], Feed.empty⟩

def World.setForm (w : World) (i : ℕ) (form : CreateCommunityVC) : World :=
  { w with forms := w.forms.set i form }

/-- What a call of `owner` does to the world; the login screen and the reloads of the
collection view are not modelled here. -/
def perform (owner : Owner) (key : String) (w : World) : Call → Option World
  | .observeCommunities =>
    some { w with communities := w.communities.observe ⟨(), owner⟩ }
  | .setCommunity dataArray =>
    (w.communities.write ⟨(), owner⟩ key (.dict dataArray)).map fun feed =>
      { w with communities := feed }
  | _ => some w

/-- The completion of a creation runs on the form that asked for it. -/
def answered (w : World) (error : Bool) (owner : Owner) (feed : Feed String Value Unit Owner) :
    Option World :=
  match owner with
  | .root => none
  | .form i => do
    let form ← w.forms[i]?
    return { w.setForm i (form.createCommunityDone error) with communities := feed }

def step (w : World) : Act → Option World
  | .signedIn user => some { w with currentUser := user }
  | .viewDidAppear =>
    let (root, calls) := w.root.viewDidAppear w.currentUser
    calls.foldlM (perform .root "") { w with root := root }
  | .pushCreateCommunity => some { w with forms := w.forms ++ [{}] }
  | .edit i text => do
    let form ← w.forms[i]?
    return w.setForm i { form with addNewName := text }
  | .createCommunityButton i key => do
    let form ← w.forms[i]?
    form.createCommunityButton.foldlM (perform (.form i) key) w
  | .otherClient key value => do
    let feed ← w.communities.insert key value
    return { w with communities := feed }
  | .accepted i => do
    let (cb, feed) ← w.communities.accept i
    answered w false cb.owner feed
  | .rejected i => do
    let (cb, feed) ← w.communities.reject i
    answered w true cb.owner feed
  | .childAdded o key => do
    let (_, value, feed) ← w.communities.deliver o key
    return { w with root := (w.root.childAdded key value).1, communities := feed }

/-- An appearance empties the array and registers one more observer. -/
theorem step_viewDidAppear (w : World) : step w .viewDidAppear = some { w with
    root := { arrayOfCommunities := [] },
    communities := w.communities.observe ⟨(), .root⟩ } := by
  cases h : w.currentUser <;>
    simp [step, CommunityVC.viewDidAppear, CommunityVC.presentLoginScreen,
      CommunityVC.observeCommunity, perform, h]

theorem step_createCommunityButton {w w' : World} {i : ℕ} {key : String}
    (h : step w (.createCommunityButton i key) = some w') : w' = w ∨
      ∃ name feed, w.communities.write ⟨(), .form i⟩ key
        (.dict [("CommunityName", .string name)]) = some feed ∧
        w' = { w with communities := feed } := by
  simp only [step, Option.bind_eq_bind, Option.bind_eq_some_iff] at h
  obtain ⟨form, -, hw⟩ := h
  unfold CreateCommunityVC.createCommunityButton at hw
  split_ifs at hw
  · exact Or.inl (by simpa [eq_comm] using hw)
  · obtain ⟨feed, hf, rfl⟩ : ∃ feed, w.communities.write ⟨(), .form i⟩ key _ = some feed ∧
        { w with communities := feed } = w' := by
      simpa [perform, Option.map_eq_some_iff] using hw
    exact Or.inr ⟨_, feed, hf, rfl⟩

theorem answered_eq_some {w w' : World} {error : Bool} {owner : Owner}
    {feed : Feed String Value Unit Owner} (h : answered w error owner feed = some w') :
    w'.root = w.root ∧ w'.communities = feed := by
  cases owner with
  | root => cases h
  | form i =>
    simp only [answered, Option.bind_eq_bind, Option.bind_eq_some_iff] at h
    obtain ⟨form, -, hw⟩ := h
    obtain rfl := Option.some.inj hw
    exact ⟨rfl, rfl⟩

/-- A delivery runs the closure on the child's value. -/
theorem step_childAdded {w w' : World} {o : ℕ} {key : String}
    (h : step w (.childAdded o key) = some w') : ∃ cb value feed,
      w.communities.deliver o key = some (cb, value, feed) ∧
        w' = { w with root := (w.root.childAdded key value).1, communities := feed } := by
  simp only [step, Option.bind_eq_bind, Option.bind_eq_some_iff] at h
  obtain ⟨⟨cb, value, feed⟩, hf, hw⟩ := h
  exact ⟨cb, value, feed, hf, (Option.some.inj hw).symm⟩

/-- The steps that are neither an appearance nor a delivery leave the root screen alone. -/
theorem step_other {w w' : World} {a : Act} (h : step w a = some w') (ha : a ≠ .viewDidAppear)
    (hd : ∀ o key, a ≠ .childAdded o key) : w'.root = w.root ∧
      w'.communities.observers = w.communities.observers ∧
        w'.communities.raised = w.communities.raised := by
  cases a with
  | viewDidAppear => exact absurd rfl ha
  | childAdded o key => exact absurd rfl (hd o key)
  | signedIn user =>
    obtain rfl := Option.some.inj h
    exact ⟨rfl, rfl, rfl⟩
  | pushCreateCommunity =>
    obtain rfl := Option.some.inj h
    exact ⟨rfl, rfl, rfl⟩
  | edit i text =>
    simp only [step, Option.bind_eq_bind, Option.bind_eq_some_iff] at h
    obtain ⟨form, -, hw⟩ := h
    obtain rfl := Option.some.inj hw
    exact ⟨rfl, rfl, rfl⟩
  | createCommunityButton i key =>
    rcases step_createCommunityButton h with rfl | ⟨name, feed, hf, rfl⟩
    · exact ⟨rfl, rfl, rfl⟩
    · obtain ⟨-, -, -, ho, hr, -⟩ := Feed.write_eq_some hf
      exact ⟨rfl, ho, hr⟩
  | otherClient key value =>
    simp only [step, Option.bind_eq_bind, Option.bind_eq_some_iff] at h
    obtain ⟨feed, hf, hw⟩ := h
    obtain rfl := Option.some.inj hw
    obtain ⟨-, -, -, ho, hr, -⟩ := Feed.insert_eq_some hf
    exact ⟨rfl, ho, hr⟩
  | accepted i =>
    simp only [step, Option.bind_eq_bind, Option.bind_eq_some_iff] at h
    obtain ⟨⟨cb, feed⟩, hf, hw⟩ := h
    obtain ⟨hroot, rfl⟩ := answered_eq_some hw
    obtain ⟨-, -, -, -, ho, hr, -⟩ := Feed.accept_eq_some hf
    exact ⟨hroot, ho, hr⟩
  | rejected i =>
    simp only [step, Option.bind_eq_bind, Option.bind_eq_some_iff] at h
    obtain ⟨⟨cb, feed⟩, hf, hw⟩ := h
    obtain ⟨hroot, rfl⟩ := answered_eq_some hw
    obtain ⟨-, -, -, -, ho, hr, -⟩ := Feed.reject_eq_some hf
    exact ⟨hroot, ho, hr⟩

/-- A step between appearances raises at most one event, and the array follows it. -/
theorem step_between {w w' : World} {a : Act} (h : step w a = some w') (ha : a ≠ .viewDidAppear) :
    w'.communities.observers = w.communities.observers ∧
      ∃ new, w'.communities.raised = w.communities.raised ++ new ∧
        w'.root.arrayOfCommunities = w.root.arrayOfCommunities ++
          new.filterMap fun e => decodeCommunity e.key e.value := by
  by_cases hd : ∃ o key, a = .childAdded o key
  · obtain ⟨o, key, rfl⟩ := hd
    obtain ⟨cb, value, feed, hf, rfl⟩ := step_childAdded h
    obtain ⟨-, -, -, hr, -, -, ho, -⟩ := Feed.deliver_eq_some hf
    refine ⟨ho, [⟨o, key, value⟩], hr, ?_⟩
    rw [CommunityVC.childAdded_array]
    cases hdecode : decodeCommunity key value <;> simp [hdecode]
  · obtain ⟨hroot, ho, hr⟩ := step_other h ha fun o key heq => hd ⟨o, key, heq⟩
    exact ⟨ho, [], by simp [hr], by simp [hroot]⟩

end LoopChat.CommunityListSystem
