import LoopChat.ControllerCalls

/-!
# CommunityVC and CreateCommunityVC

The list of communities on the root screen and the form that adds one.
-/
namespace LoopChat
open FirebaseValues

structure CommunityVC where
  arrayOfCommunities : List Community := []
  deriving DecidableEq, Repr

/-- The casts of the `childAdded` closure of `observeCommunity`. -/
def decodeCommunity (key : String) (value : Value) : Option Community := do
  let dataArray ← value.asDict
  let communityName ← dataArray.string "CommunityName"
  return { communityName := communityName, communityID := key }

/-- A child is listed exactly when it is a dictionary with a string `CommunityName`. -/
theorem decodeCommunity_eq_some {key : String} {value : Value} {community : Community} :
    decodeCommunity key value = some community ↔ ∃ fields : Fields, value = .dict fields ∧
      fields.string "CommunityName" = some community.communityName ∧
        community.communityID = key := by
  obtain ⟨communityName, communityID⟩ := community
  cases value with
  | dict fields =>
    simp only [decodeCommunity, Value.asDict, Option.pure_def, Option.bind_eq_bind,
      Option.bind_some, Option.bind_eq_some_iff, Option.some.injEq, Community.mk.injEq,
      Value.dict.injEq]
    constructor
    · rintro ⟨_, hn, rfl, rfl⟩
      exact ⟨fields, rfl, hn, rfl⟩
    · rintro ⟨_, rfl, hn, rfl⟩
      exact ⟨_, hn, rfl, rfl⟩
  | null | bool | number | string | array => simp [decodeCommunity, Value.asDict]

namespace CommunityVC

def observeCommunity : List Call := [.observeCommunities]

def presentLoginScreen : List Call := [.showLogin]

/-- The `childAdded` closure registered by `observeCommunity`. -/
def childAdded (vc : CommunityVC) (key : String) (value : Value) : CommunityVC × List Call :=
  match decodeCommunity key value with
  | none => (vc, [])
  | some community =>
    ({ vc with arrayOfCommunities := vc.arrayOfCommunities ++ [community] }, [.reloadData])

def viewDidAppear (vc : CommunityVC) (currentUser : Option String) : CommunityVC × List Call :=
  ({ vc with arrayOfCommunities := [] },
    (if currentUser = none then presentLoginScreen else []) ++ observeCommunity)

theorem childAdded_array (vc : CommunityVC) (key : String) (value : Value) :
    (vc.childAdded key value).1.arrayOfCommunities =
      vc.arrayOfCommunities ++ (decodeCommunity key value).toList := by
  unfold childAdded
  cases decodeCommunity key value <;> simp

end CommunityVC

structure CreateCommunityVC where
  addNewName : String := ""
  deriving DecidableEq, Repr

namespace CreateCommunityVC

def createCommunityButton (vc : CreateCommunityVC) : List Call :=
  if vc.addNewName = "" then [] else [.setCommunity [("CommunityName", .string vc.addNewName)]]

/-- The completion of `setValue`. -/
def createCommunityDone (vc : CreateCommunityVC) (error : Bool) : CreateCommunityVC :=
  if error then vc else { vc with addNewName := "" }

end CreateCommunityVC

/-- What the form writes is listed under the name that was typed. -/
theorem decodeCommunity_created (key name : String) :
    decodeCommunity key (.dict [("CommunityName", .string name)]) = some ⟨name, key⟩ := rfl

end LoopChat
