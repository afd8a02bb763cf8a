import LoopChat.ControllerCalls

/-!
# Firebase Auth and the Users collection

Two stores that know nothing of each other. A request either takes effect in its own
store or fails and changes nothing; which of the two happens, and the uid that Auth
hands out, is the choice of the environment. A load is answered with what its client sees of
the document, which is a parameter here.
-/
namespace LoopChat
open FirebaseValues

/-- Accounts with their emails, the uids ever handed out, and the Users documents. -/
structure Stores where
  accounts : String → Option String
  issued : List String
  users : String → Option Fields
  accounts_issued : ∀ uid email, accounts uid = some email → uid ∈ issued

/-- What becomes of a request. A load that does not reach the server may be answered from the
cache of the client, with some version of the document that the server held before. -/
inductive Outcome
  | failed
  | done
  | cached (version : ℕ)
  | user (uid : String)
  deriving DecidableEq, Repr

/-- What a completion handler is given. -/
inductive Answer
  | failed
  | done
  | user (uid : String)
  | snapshot (snapshot : Option Snapshot)

namespace Stores

def empty : Stores := ⟨fun _ => none, [], fun _ => none, by simp⟩

def createAccount (st : Stores) (uid email : String) : Stores where
  accounts := Function.update st.accounts uid (some email)
  issued := uid :: st.issued
  users := st.users
  accounts_issued := by
    intro uid' email' h
    by_cases hu : uid' = uid
    · simp [hu]
    · rw [Function.update_of_ne hu] at h
      exact List.mem_cons_of_mem _ (st.accounts_issued uid' email' h)

def setAccount (st : Stores) (uid : String) (account : Option String) (h : uid ∈ st.issued) :
    Stores where
  accounts := Function.update st.accounts uid account
  issued := st.issued
  users := st.users
  accounts_issued := by
    intro uid' email' h'
    by_cases hu : uid' = uid
    · exact hu ▸ h
    · rw [Function.update_of_ne hu] at h'
      exact st.accounts_issued uid' email' h'

def setDocument (st : Stores) (uid : String) (document : Option Fields) : Stores :=
  { st with users := Function.update st.users uid document }

/-- The server's side of a request. Auth spells emails its own way, `normalise`; which
addresses and passwords it accepts is part of the outcome. `updateData`, `updateEmail`
and `delete` cannot succeed without their target. A load finds what `load` says. -/
def serve (normalise : String → String) (load : String → Option (Option Snapshot)) (st : Stores) :
    Call → Outcome → Option (Stores × Answer)
  | .createUser email _ _, .user uid =>
    if uid ∈ st.issued then none else some (st.createAccount uid (normalise email), .user uid)
  | .signIn email _, .user uid =>
    if st.accounts uid = some (normalise email) then some (st, .user uid) else none
  | .updateEmail uid email, .done =>
    match h : st.accounts uid with
    | none => none
    | some old => some (st.setAccount uid (some (normalise email))
        (st.accounts_issued uid old h), .done)
  | .deleteUser uid, .done =>
    match h : st.accounts uid with
    | none => none
    | some old => some (st.setAccount uid none (st.accounts_issued uid old h), .done)
  | .sendPasswordReset _, .done => some (st, .done)
  | .setData uid document, .done => some (st.setDocument uid (some document), .done)
  | .updateData uid fields, .done =>
    (st.users uid).map fun document => (st.setDocument uid (some (document.merge fields)), .done)
  | .deleteDocument uid, .done => some (st.setDocument uid none, .done)
  | .getDocument uid, _ => (load uid).map fun snapshot => (st, .snapshot snapshot)
  | _, .failed => some (st, .failed)
  | _, _ => none

/-- What a served request did, with everything that was checked on the way. -/
inductive Effect (normalise : String → String) (load : String → Option (Option Snapshot))
    (st : Stores) : Call → Outcome → Answer → Stores → Prop
  | created {uid : String} (email password userName : String) (fresh : uid ∉ st.issued) :
      Effect normalise load st (.createUser email password userName) (.user uid) (.user uid)
        (st.createAccount uid (normalise email))
  | signedIn {uid email : String} (password : String)
      (account : st.accounts uid = some (normalise email)) :
      Effect normalise load st (.signIn email password) (.user uid) (.user uid) st
  | emailUpdated {uid old : String} (email : String) (account : st.accounts uid = some old) :
      Effect normalise load st (.updateEmail uid email) .done .done
        (st.setAccount uid (some (normalise email)) (st.accounts_issued uid old account))
  | userDeleted {uid old : String} (account : st.accounts uid = some old) :
      Effect normalise load st (.deleteUser uid) .done .done
        (st.setAccount uid none (st.accounts_issued uid old account))
  | resetSent (email : String) : Effect normalise load st (.sendPasswordReset email) .done .done st
  | documentSet (uid : String) (document : Fields) :
      Effect normalise load st (.setData uid document) .done .done
        (st.setDocument uid (some document))
  | documentUpdated {uid : String} {document : Fields} (fields : Fields)
      (exists_at : st.users uid = some document) :
      Effect normalise load st (.updateData uid fields) .done .done
        (st.setDocument uid (some (document.merge fields)))
  | documentDeleted (uid : String) :
      Effect normalise load st (.deleteDocument uid) .done .done (st.setDocument uid none)
  | loaded {uid : String} {outcome : Outcome} {snapshot : Option Snapshot}
      (found : load uid = some snapshot) :
      Effect normalise load st (.getDocument uid) outcome (.snapshot snapshot) st
  | failed {call : Call} (no_load : ∀ uid, call ≠ .getDocument uid) :
      Effect normalise load st call .failed .failed st

theorem serve_effect {normalise : String → String} {load : String → Option (Option Snapshot)}
    {st st' : Stores} {call : Call} {outcome : Outcome} {answer : Answer}
    (h : st.serve normalise load call outcome = some (st', answer)) :
    Effect normalise load st call outcome answer st' := by
  unfold serve at h
  split at h
  case h_1 email password userName uid =>
    split_ifs at h with hu
    obtain ⟨rfl, rfl⟩ := by simpa using h
    exact .created email password userName hu
  case h_2 email password uid =>
    split_ifs at h with ha
    obtain ⟨rfl, rfl⟩ := by simpa using h
    exact .signedIn password ha
  case h_3 uid email =>
    split at h
    · exact absurd h (by simp)
    · rename_i old ha
      obtain ⟨rfl, rfl⟩ := by simpa using h
      exact .emailUpdated email ha
  case h_4 uid =>
    split at h
    · exact absurd h (by simp)
    · rename_i old ha
      obtain ⟨rfl, rfl⟩ := by simpa using h
      exact .userDeleted ha
  case h_5 email =>
    obtain ⟨rfl, rfl⟩ := by simpa using h
    exact .resetSent email
  case h_6 uid document =>
    obtain ⟨rfl, rfl⟩ := by simpa using h
    exact .documentSet uid document
  case h_7 uid fields =>
    obtain ⟨document, hd, heq⟩ := Option.map_eq_some_iff.mp h
    obtain ⟨rfl, rfl⟩ := by simpa using heq
    exact .documentUpdated fields hd
  case h_8 uid =>
    obtain ⟨rfl, rfl⟩ := by simpa using h
    exact .documentDeleted uid
  case h_9 uid =>
    obtain ⟨snapshot, hload, heq⟩ := Option.map_eq_some_iff.mp h
    obtain ⟨rfl, rfl⟩ := by simpa using heq
    exact .loaded hload
  case h_10 hno =>
    obtain ⟨rfl, rfl⟩ := by simpa using h
    exact .failed fun uid hc => hno uid hc
  case h_11 => exact absurd h (by simp)

/-! ### What a request decides about one uid -/

variable {normalise : String → String} {load : String → Option (Option Snapshot)}
  {st st' : Stores} {call : Call} {outcome : Outcome} {answer : Answer} {uid : String}

/-- The answer to a sign-up that created the account `uid`. -/
def Creates (call : Call) (answer : Answer) (uid : String) : Prop :=
  ∃ email password userName, call = .createUser email password userName ∧ answer = .user uid

theorem Effect.issued (h : Effect normalise load st call outcome answer st') :
    uid ∈ st'.issued ↔ uid ∈ st.issued ∨ Creates call answer uid := by
  cases h with
  | created email password userName fresh =>
    simp [createAccount, Creates, or_comm, eq_comm]
  | failed no_load => simp [Creates]
  | _ => simp [Creates, setAccount, setDocument]

theorem Effect.fresh (h : Effect normalise load st call outcome answer st')
    (hc : Creates call answer uid) : uid ∉ st.issued := by
  obtain ⟨email, password, userName, rfl, rfl⟩ := hc
  cases h with
  | created _ _ _ fresh => exact fresh

theorem Effect.deletes_issued (h : Effect normalise load st (.deleteUser uid) outcome .done st') :
    uid ∈ st.issued := by
  cases h with
  | @userDeleted _ old account => exact st.accounts_issued uid old account

theorem Effect.account_isSome (h : Effect normalise load st call outcome answer st') :
    (st'.accounts uid).isSome ↔ ((st.accounts uid).isSome ∨ Creates call answer uid) ∧
      ¬ (call = .deleteUser uid ∧ answer = .done) := by
  cases h with
  | @created uid' email password userName fresh =>
    by_cases he : uid = uid'
    · simp [createAccount, Creates, he]
    · simp [createAccount, Creates, he, Ne.symm he]
  | @emailUpdated uid' old email account =>
    by_cases he : uid = uid'
    · simp [setAccount, Creates, he, account]
    · simp [setAccount, Creates, he]
  | @userDeleted uid' old account =>
    by_cases he : uid = uid'
    · simp [setAccount, he]
    · simp [setAccount, Creates, he, Ne.symm he]
  | _ => simp [Creates, setDocument]

theorem Effect.document_isSome (h : Effect normalise load st call outcome answer st') :
    (st'.users uid).isSome ↔ (∃ document, call = .setData uid document ∧ answer = .done) ∨
      ((st.users uid).isSome ∧ ¬ (call = .deleteDocument uid ∧ answer = .done)) := by
  cases h with
  | documentSet uid' document =>
    by_cases he : uid = uid'
    · simp [setDocument, he]
    · simp [setDocument, he, Ne.symm he]
  | @documentUpdated uid' document fields exists_at =>
    by_cases he : uid = uid'
    · simp [setDocument, he, exists_at]
    · simp [setDocument, he]
  | documentDeleted uid' =>
    by_cases he : uid = uid'
    · simp [setDocument, he]
    · simp [setDocument, he, Ne.symm he]
  | _ => simp [createAccount, setAccount]

/-- Where a document comes from: it was there, it was set, or an update was merged into it. -/
theorem Effect.document_cases {document : Fields}
    (h : Effect normalise load st call outcome answer st') (hu : st'.users uid = some document) :
    (call = .setData uid document ∧ answer = .done) ∨
    (∃ old fields, call = .updateData uid fields ∧ answer = .done ∧ st.users uid = some old ∧
      document = old.merge fields) ∨
    (st.users uid = some document ∧
      ∀ fields, ¬ (call = .updateData uid fields ∧ answer = .done)) := by
  cases h with
  | documentSet uid' document' =>
    by_cases he : uid = uid'
    · subst he
      obtain rfl : document' = document := by simpa [setDocument] using hu
      exact Or.inl ⟨rfl, rfl⟩
    · exact Or.inr (Or.inr ⟨by simpa [setDocument, he] using hu, by simp⟩)
  | @documentUpdated uid' old fields exists_at =>
    by_cases he : uid = uid'
    · subst he
      obtain rfl : old.merge fields = document := by simpa [setDocument] using hu
      exact Or.inr (Or.inl ⟨old, fields, rfl, rfl, exists_at, rfl⟩)
    · exact Or.inr (Or.inr ⟨by simpa [setDocument, he] using hu, by simp [Ne.symm he]⟩)
  | documentDeleted uid' =>
    by_cases he : uid = uid'
    · simp [setDocument, he] at hu
    · exact Or.inr (Or.inr ⟨by simpa [setDocument, he] using hu, by simp⟩)
  | _ => exact Or.inr (Or.inr ⟨hu, by simp⟩)

/-- Where the email of an account comes from: a sign-up, an update, or it was there. -/
theorem Effect.account_cases {account : String}
    (h : Effect normalise load st call outcome answer st') (hu : st'.accounts uid = some account) :
    (∃ email password userName, call = .createUser email password userName ∧
      answer = .user uid ∧ account = normalise email) ∨
    (∃ old email, call = .updateEmail uid email ∧ answer = .done ∧ st.accounts uid = some old ∧
      account = normalise email) ∨
    (st.accounts uid = some account ∧
      ∀ email, ¬ (call = .updateEmail uid email ∧ answer = .done)) := by
  cases h with
  | @created uid' email password userName fresh =>
    by_cases he : uid = uid'
    · subst he
      obtain rfl : normalise email = account := by simpa [createAccount] using hu
      exact Or.inl ⟨email, password, userName, rfl, rfl, rfl⟩
    · exact Or.inr (Or.inr ⟨by simpa [createAccount, he] using hu, by simp⟩)
  | @emailUpdated uid' old email existing =>
    by_cases he : uid = uid'
    · subst he
      obtain rfl : normalise email = account := by simpa [setAccount] using hu
      exact Or.inr (Or.inl ⟨old, email, rfl, rfl, existing, rfl⟩)
    · exact Or.inr (Or.inr ⟨by simpa [setAccount, he] using hu, by simp [Ne.symm he]⟩)
  | @userDeleted uid' old existing =>
    by_cases he : uid = uid'
    · simp [setAccount, he] at hu
    · exact Or.inr (Or.inr ⟨by simpa [setAccount, he] using hu, by simp⟩)
  | _ => exact Or.inr (Or.inr ⟨hu, by simp⟩)

end Stores

end LoopChat
