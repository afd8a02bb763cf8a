import Mathlib

/-!
# Values stored in Firebase

The Realtime Database and Firestore hand the app untyped values. A cast such as
`as? String` either finds the requested shape or answers nil.
-/
namespace LoopChat.FirebaseValues

inductive Value
  | null
  | bool (b : Bool)
  | number (q : ℚ)
  | string (s : String)
  | array (items : List Value)
  | dict (fields : List (String × Value))

/-- A dictionary `[String: Any]`; the first binding of a name counts. -/
abbrev Fields := List (String × Value)

/-- The cast `as? String`. -/
def Value.asString : Value → Option String
  | .string s => some s
  | _ => none

/-- The cast `as? [String: Any]`. -/
def Value.asDict : Value → Option Fields
  | .dict fields => some fields
  | _ => none

/-- `fields[name] as? String`. -/
def Fields.string (fields : Fields) (name : String) : Option String :=
  (fields.lookup name).bind Value.asString

/-- Firestore's `updateData`: the named fields are replaced, the others stay. -/
def Fields.merge (document fields : Fields) : Fields := fields ++ document

theorem Fields.string_merge (document fields : Fields) (name : String) :
    (document.merge fields).string name =
      if (fields.lookup name).isSome then fields.string name else document.string name := by
  simp only [Fields.merge, Fields.string, List.lookup_append]
  cases h : fields.lookup name <;> simp

/-- A Firestore snapshot, by its `data()`: nil when the document does not exist. -/
abbrev Snapshot := Option Fields

/-- `data()?[name] as? String`. -/
def Snapshot.string (snapshot : Snapshot) (name : String) : Option String :=
  snapshot.bind fun document => Fields.string document name

/-! ### A document as its writer sees it -/

/-- A write of a document, as a client makes it. -/
inductive DocumentWrite
  | set (document : Fields)
  | update (fields : Fields)
  | delete

/-- An update of a document that does not exist leaves nothing. -/
def DocumentWrite.apply (document : Snapshot) : DocumentWrite → Snapshot
  | set fields => some fields
  | update fields => document.map fun document => document.merge fields
  | delete => none

/-- The document as a client sees it: its own unanswered writes are laid over it, oldest first. -/
def seenBy (own : List DocumentWrite) (document : Snapshot) : Snapshot :=
  own.foldl DocumentWrite.apply document

/-- What the document and the writes of it keep to, the document seen keeps to. -/
theorem of_seenBy {P : Fields → Prop} {own : List DocumentWrite} {document : Snapshot}
    (hset : ∀ fields, .set fields ∈ own → P fields)
    (hupdate : ∀ fields, .update fields ∈ own → ∀ document, P document → P (document.merge fields))
    (hdocument : ∀ fields, document = some fields → P fields) :
    ∀ fields, seenBy own document = some fields → P fields := by
  induction own generalizing document with
  | nil => exact hdocument
  | cons write own ih =>
    refine ih (fun fields h => hset fields (List.mem_cons_of_mem _ h))
      (fun fields h => hupdate fields (List.mem_cons_of_mem _ h)) fun fields hfields => ?_
    cases write with
    | set fields' =>
      obtain rfl := Option.some.inj hfields
      exact hset _ List.mem_cons_self
    | update fields' =>
      obtain ⟨old, hold, rfl⟩ := Option.map_eq_some_iff.mp hfields
      exact hupdate fields' List.mem_cons_self old (hdocument old hold)
    | delete => exact absurd hfields (by simp [DocumentWrite.apply])

/-- Where a load is answered: by the server, from an earlier version of the document in the cache
of the client, or nowhere. -/
inductive LoadSource
  | server
  | cache (version : ℕ)
  | nowhere
  deriving DecidableEq, Repr

/-- The answer to a load, nil for an error. A document missing in the cache is an error. -/
def answerFrom (own : List DocumentWrite) (document : Snapshot) (versions : List Fields) :
    LoadSource → Option Snapshot
  | .server => some (seenBy own document)
  | .cache i => (seenBy own versions[i]?).map some
  | .nowhere => none

/-- What the versions of the document and the writes of it keep to, the answer keeps to. -/
theorem of_answerFrom {P : Fields → Prop} {own : List DocumentWrite} {document : Snapshot}
    {versions : List Fields} {source : LoadSource} {fields : Fields}
    (hset : ∀ fields, .set fields ∈ own → P fields)
    (hupdate : ∀ fields, .update fields ∈ own → ∀ document, P document → P (document.merge fields))
    (hdocument : ∀ fields, document = some fields → P fields)
    (hversions : ∀ fields ∈ versions, P fields)
    (h : answerFrom own document versions source = some (some fields)) : P fields := by
  cases source with
  | server => exact of_seenBy hset hupdate hdocument fields (Option.some.inj h)
  | cache i =>
    obtain ⟨seen, hseen, heq⟩ := Option.map_eq_some_iff.mp h
    obtain rfl := Option.some.inj heq
    exact of_seenBy hset hupdate (fun old hold => hversions old (List.mem_of_getElem? hold)) _ hseen
  | nowhere => cases h

end LoopChat.FirebaseValues
