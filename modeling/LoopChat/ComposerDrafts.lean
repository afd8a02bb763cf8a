import LoopChat.ChatScreen
import LoopChat.CommunityScreen
import LoopChat.DraftWrites

/-!
# The drafts of the two composers

The message field of the chat and the name field of the creation form. Both buttons stay
enabled and both fields stay editable while a write is on its way, and both completion
handlers empty the field without a look at what it holds by then.
-/
namespace LoopChat
open TransitionRuns DraftWrites

/-- A chat screen that is open on a community, with the uid signed in. -/
structure ChatForm where
  vc : ChatScreentVC
  userid : String
  community : Community
  opened : vc.community = some community

theorem ChatScreentVC.sendMessageDone_community (vc : ChatScreentVC) (error : Bool) :
    (vc.sendMessageDone error).community = vc.community := by
  cases error <;> rfl

theorem ChatScreentVC.sendMessageAction_filled {vc : ChatScreentVC} {community : Community}
    (userid : String) (hset : vc.community = some community) (ht : vc.messageTextField ≠ "") :
    ∃ call, vc.sendMessageAction (some userid) = [call] :=
  ⟨_, sendMessageAction_eq_singleton.mpr ⟨userid, community, rfl, hset, ht, rfl⟩⟩

def messageComposer : Composer ChatForm Call where
  text form := form.vc.messageTextField
  edit form t := { form with vc := { form.vc with messageTextField := t } }
  tap form := form.vc.sendMessageAction (some form.userid)
  done form error :=
    ⟨form.vc.sendMessageDone error, form.userid, form.community,
      (form.vc.sendMessageDone_community error).trans form.opened⟩
  text_edit _ _ := rfl
  tap_empty form ht := by simp [ChatScreentVC.sendMessageAction, ht]
  tap_text form ht := ChatScreentVC.sendMessageAction_filled form.userid form.opened ht
  text_failed _ := rfl
  text_done _ := rfl

def communityComposer : Composer CreateCommunityVC Call where
  text form := form.addNewName
  edit form t := { form with addNewName := t }
  tap form := form.createCommunityButton
  done form error := form.createCommunityDone error
  text_edit _ _ := rfl
  tap_empty form ht := by simp [CreateCommunityVC.createCommunityButton, ht]
  tap_text form ht := ⟨_, by rw [CreateCommunityVC.createCommunityButton, if_neg ht]⟩
  text_failed _ := rfl
  text_done _ := rfl

/-- Both composers write each draft at most once, not counting failed writes, and erase none that
is not acknowledged, exactly along the runs in which no draft is tapped while a write of it is
unanswered and no success finds another draft in the field than the one it was written from. -/
theorem composers_onceOrKept_iff {chat : ChatForm} {form : CreateCommunityVC}
    {as : List (Act ChatForm)} {bs : List (Act CreateCommunityVC)} {w : World ChatForm Call}
    {v : World CreateCommunityVC Call} (hw : Run (step messageComposer) (initial chat) as w)
    (hv : Run (step communityComposer) (initial form) bs v) :
    (Along (step messageComposer) (initial chat) (OnceOrKept messageComposer) as ↔
      Along (step messageComposer) (initial chat) (Careful messageComposer) as) ∧
    (Along (step communityComposer) (initial form) (OnceOrKept communityComposer) bs ↔
      Along (step communityComposer) (initial form) (Careful communityComposer) bs) :=
  ⟨run_onceOrKept_iff hw, run_onceOrKept_iff hv⟩

def openChat : ChatForm := ⟨{ community := some ⟨"Swift", "c"⟩ }, "u", ⟨"Swift", "c"⟩, rfl⟩

/-- A draft is written, refused, written again and acknowledged. -/
def writtenAgain {φ : Type*} : List (Act φ) := [.edit "a", .tap, .failed 0, .tap, .succeeded 1]

theorem writtenAgain_onceOrKept :
    Along (step messageComposer) (initial openChat) (OnceOrKept messageComposer) writtenAgain ∧
      Along (step communityComposer) (initial {}) (OnceOrKept communityComposer)
        writtenAgain := by
  obtain ⟨w, hw⟩ : ∃ w, exec (step messageComposer) (initial openChat) writtenAgain = some w :=
    Option.isSome_iff_exists.mp rfl
  obtain ⟨v, hv⟩ : ∃ v, exec (step communityComposer) (initial {}) writtenAgain = some v :=
    Option.isSome_iff_exists.mp rfl
  have hchat : checkAlong (step messageComposer)
      (fun w a => decide (Careful messageComposer w a)) (initial openChat) writtenAgain = true :=
    rfl
  have hform : checkAlong (step communityComposer)
      (fun w a => decide (Careful communityComposer w a)) (initial {}) writtenAgain = true := rfl
  have hiff := composers_onceOrKept_iff (run_iff_exec.mpr hw) (run_iff_exec.mpr hv)
  exact ⟨hiff.1.mpr (along_of_check (fun _ _ => of_decide_eq_true) hchat),
    hiff.2.mpr (along_of_check (fun _ _ => of_decide_eq_true) hform)⟩

/-- A second tap on Send before the answer writes the message twice, and on the creation form the
name typed while the first one was on its way is erased by the first one's success. -/
theorem composers_not_onceOrKept :
    (¬ ∀ form as w, Run (step messageComposer) (initial form) as w →
      Along (step messageComposer) (initial form) (OnceOrKept messageComposer) as) ∧
    ¬ ∀ form as w, Run (step communityComposer) (initial form) as w →
      Along (step communityComposer) (initial form) (OnceOrKept communityComposer) as := by
  constructor
  · intro hall
    have hend : (exec (step messageComposer) (initial openChat) [.edit "a", .tap]).map (fun w =>
        ((step messageComposer w .tap).isSome, decide (Careful messageComposer w .tap))) =
        some (true, false) := rfl
    obtain ⟨w, hw, heq⟩ := run_of_exec_map hend
    obtain ⟨hsome, hno⟩ := Prod.mk.inj heq
    obtain ⟨w', hw'⟩ := Option.isSome_iff_exists.mp hsome
    exact not_onceOrKept hw hw' (of_decide_eq_false hno) (hall _ _ _ (hw.snoc hw'))
  · intro hall
    have hend : (exec (step communityComposer) (initial {}) [.edit "a", .tap, .edit "b"]).map
        (fun w => ((step communityComposer w (.succeeded 0)).isSome,
          decide (Careful communityComposer w (.succeeded 0)))) = some (true, false) := rfl
    obtain ⟨w, hw, heq⟩ := run_of_exec_map hend
    obtain ⟨hsome, hno⟩ := Prod.mk.inj heq
    obtain ⟨w', hw'⟩ := Option.isSome_iff_exists.mp hsome
    exact not_onceOrKept hw hw' (of_decide_eq_false hno) (hall _ _ _ (hw.snoc hw'))

end LoopChat
