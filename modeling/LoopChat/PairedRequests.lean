import LoopChat.DocumentLedger

/-!
# Requests in pairs

A save and a confirmed deletion send one request to Firestore and one to Auth. Nothing in the
app relates the two answers: that they come out alike is left to the two servers, and `accept`
says which reactions they let pass.
-/
namespace LoopChat
open FirebaseValues NavigationWindow

/-- The requests that come in pairs. -/
def Call.paired : Call → Bool
  | .updateData _ _ | .updateEmail _ _ | .deleteDocument _ | .deleteUser _ => true
  | _ => false

namespace AppSystem
open TransitionRuns

/-- No answer is outstanding, and none is left to handle but on devices whose app has crashed. -/
def World.Quiet (w : World) : Prop :=
  ∀ r ∈ w.requests, r.answer ≠ none ∧ (w.devices r.device).trapped ≠ none

/-- The document of `uid` was deleted or lost, and none is to be written. -/
def World.ProfileGone (w : World) (uid : String) : Prop :=
  uid ∈ w.stores.issued ∧ w.stores.users uid = none ∧ ¬ Unwritten w.requests uid

def World.AccountGone (w : World) (uid : String) : Prop :=
  uid ∈ w.stores.issued ∧ w.stores.accounts uid = none

/-- What the request is to change was there and is gone. -/
def World.Missing (w : World) : Call → Prop
  | .updateData uid _ | .deleteDocument uid => w.ProfileGone uid
  | .updateEmail uid _ | .deleteUser uid => w.AccountGone uid
  | _ => False

/-- A request succeeds when its reaction is accepted; what finds nothing to change is free. -/
def AnsweredAlike (accept : ℕ → Bool) (w : World) (request : Request) (outcome : Outcome) : Prop :=
  w.Missing request.call ∨ (outcome = .done ↔ accept request.reaction = true)

/-- The request waits for its answer and is going to be accepted. -/
def Request.Granted (accept : ℕ → Bool) (r : Request) : Prop :=
  r.answer = none ∧ accept r.reaction = true

instance (accept : ℕ → Bool) (r : Request) : Decidable (r.Granted accept) :=
  decidable_of_iff (r.answer.isNone = true ∧ accept r.reaction = true)
    (and_congr_left' Option.isNone_iff_eq_none)

variable {accept : ℕ → Bool} {w : World} {n d : ℕ} {dev : Device} {t : Tap} {reaction : Reaction}
  {before after : List Request} {request : Request} {answer : Answer} {outcome : Outcome}
  {uid : String}

/-- What a tap requests: the two requests of a save, those of a deletion, or nothing in pairs. -/
theorem made_tap_pairs (ht : Device.TapEffect dev t reaction) :
    (∃ uid name email, made n d reaction =
      [⟨d, reaction.issuer, .updateData uid (UserProfileVC.updateFields name email), n, none⟩,
        ⟨d, reaction.issuer, .updateEmail uid email, n, none⟩]) ∨
    (∃ uid, made n d reaction = [⟨d, reaction.issuer, .deleteDocument uid, n, none⟩,
      ⟨d, reaction.issuer, .deleteUser uid, n, none⟩]) ∨
    ∀ r ∈ made n d reaction, r.call.paired = false := by
  have hsingle : ∀ call : Call, call.paired = false → reaction.calls = .ok [call] →
      ∀ r ∈ made n d reaction, r.call.paired = false := by
    intro call hcall hcalls r hr
    obtain ⟨calls, call', hc, hmem, -, rfl⟩ := mem_made.mp hr
    obtain rfl := Except.ok.inj (hcalls.symm.trans hc)
    exact List.mem_singleton.mp hmem ▸ hcall
  have hnone : (∀ calls, reaction.calls = .ok calls → calls.filter Call.isRequest = []) →
      ∀ r ∈ made n d reaction, r.call.paired = false := by
    intro hempty r hr
    obtain ⟨calls, call, hc, hmem, hreq, rfl⟩ := mem_made.mp hr
    exact absurd (List.mem_filter.mpr ⟨hmem, hreq⟩) (by simp [hempty calls hc])
  cases ht with
  | @updated id vc below idle stack =>
    cases hc : vc.update dev.currentUser with
    | error trap => exact Or.inr (Or.inr (by simp [made]))
    | ok calls =>
      obtain ⟨uid, -, rfl⟩ := UserProfileVC.update_eq_ok.mp hc
      exact Or.inl ⟨uid, vc.profileUserName, vc.profileEmail, rfl⟩
  | confirmed covers kind =>
    cases hc : UserProfileVC.deleteAccountYes dev.currentUser with
    | error trap => exact Or.inr (Or.inr (by simp [made]))
    | ok calls =>
      obtain ⟨uid, -, rfl⟩ := UserProfileVC.deleteAccountYes_eq_ok.mp hc
      exact Or.inr (Or.inl ⟨uid, rfl⟩)
  | loggedOut idle stack =>
    refine Or.inr (Or.inr (hnone fun calls hc => ?_))
    obtain rfl := Except.ok.inj hc
    rfl
  | asked idle stack => exact Or.inr (Or.inr (hsingle _ rfl rfl))
  | called covers call_kind =>
    refine Or.inr (Or.inr (hsingle _ ?_ rfl))
    cases call_kind <;> rfl
  | _ =>
    refine Or.inr (Or.inr (hnone fun calls hc => ?_))
    obtain rfl := Except.ok.inj hc
    rfl

theorem unpaired_of_appearance (ha : dev.viewDidAppear = some reaction) :
    ∀ r ∈ made n d reaction, r.call.paired = false := by
  intro r hr
  obtain ⟨uid, -, p, -, rfl⟩ := made_viewDidAppear ha hr
  rfl

theorem unpaired_of_complete {issuer : Option ℕ} {call : Call}
    (hc : Device.CompleteEffect dev issuer call answer reaction) :
    ∀ r ∈ made n d reaction, r.call.paired = false := by
  intro r hr
  rcases made_complete hc with ⟨email, password, userName, uid, -, -, hmade⟩ | ⟨hmade, -⟩
  · rw [hmade] at hr
    exact List.mem_singleton.mp hr ▸ rfl
  · simp [hmade] at hr

/-! ### What a served request settles -/

theorem unwritten_append : Unwritten (before ++ after) uid ↔
    Unwritten before uid ∨ Unwritten after uid := by
  simp only [Unwritten, List.mem_append, or_and_right, exists_or]

/-- A sign-up that is answered leaves the document to be written. -/
theorem unwritten_served :
    Unwritten (before ++ { request with answer := some answer } :: after) uid ↔
      Stores.Creates request.call answer uid ∨ Unwritten (before ++ after) uid := by
  unfold Unwritten
  rw [exists_append_cons]
  refine or_congr_left ?_
  have hstoring : storing uid { request with answer := some answer } = false := by simp [storing]
  rw [hstoring]
  unfold creating Stores.Creates
  cases request.call <;> cases answer <;> simp

theorem unwritten_waiting (waiting : request.answer = none) :
    Unwritten (before ++ request :: after) uid ↔
      (∃ document, request.call = .setData uid document) ∨ Unwritten (before ++ after) uid := by
  unfold Unwritten
  rw [exists_append_cons]
  refine or_congr_left ?_
  have hcreating : creating uid request = false := by simp [creating, waiting]
  have hstored : storing uid request = stored uid (request.call, .done) := by
    simp [storing, waiting]
  rw [hcreating, hstored, stored_eq_true]
  simp

/-- The handler of a sign-up hands the document over to the request that writes it. -/
theorem unwritten_completed {issuer : Option ℕ} (answered : request.answer = some answer)
    (hc : Device.CompleteEffect dev issuer request.call answer reaction) :
    Unwritten (before ++ after ++ made n d reaction) uid ↔
      Unwritten (before ++ request :: after) uid := by
  have hwaiting : Unwritten (before ++ request :: after) uid ↔
      creating uid request = true ∨ Unwritten (before ++ after) uid := by
    unfold Unwritten
    rw [exists_append_cons]
    simp [storing, answered]
  rw [hwaiting, unwritten_append, or_comm]
  refine or_congr_left ?_
  rcases made_complete (n := n) (d := d) hc with
    ⟨email, password, userName, u, hcall, rfl, hmade⟩ | ⟨hmade, hno⟩
  · simp [hmade, hcall, answered, Unwritten, creating, storing, stored]
  · rw [hmade]
    have hcreating : creating uid request = false := by
      unfold creating
      rw [answered]
      split
      · rename_i email password userName u hcall ha
        exact absurd ⟨hcall, Option.some.inj ha⟩ (hno email password userName u)
      · rfl
    simp [hcreating, Unwritten]

theorem paired_answer {normalise : String → String} {load : String → Option (Option Snapshot)}
    {st st' : Stores} {call : Call}
    (h : Stores.Effect normalise load st call outcome answer st') (hp : call.paired = true) :
    answer = .done ↔ outcome = .done := by
  cases h with
  | failed no_load => simp
  | emailUpdated | userDeleted | documentUpdated | documentDeleted => simp
  | _ => cases hp

end AppSystem

end LoopChat
