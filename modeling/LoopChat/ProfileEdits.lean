import LoopChat.ProfileLastSave

/-!
# Saves that keep track of edits

What the fields would hold if a save wrote only what its user had edited. The saves of the source
write both fields and keep no record of the edits; they come to the same as long as each save is
informed: an edited field still shows its edit, and a field that was not edited shows a load
after which nobody has saved an edit of it.
-/
namespace LoopChat.ProfileSaves
open FirebaseValues TransitionRuns

/-- A field under saves that write only what their user edited: what was typed on each screen
since it appeared last, and the value of the field. -/
structure Intended where
  typed : ℕ → Option String
  value : Option String

def Intended.step (field : Field) (x : Intended) : Act → Intended
  | .viewDidAppear s => { x with typed := Function.update x.typed s none }
  | .edit s field' text =>
    if field' = field then { x with typed := Function.update x.typed s (some text) } else x
  | .updateUserInfo s =>
    match x.typed s with
    | none => x
    | some text => { x with value := some text }
  | _ => x

def intended (field : Field) (document : Fields) (as : List Act) : Intended :=
  as.foldl (Intended.step field) ⟨fun _ => none, document.string field.name⟩

def intendedValue (field : Field) (document : Fields) (as : List Act) : Option String :=
  (intended field document as).value

/-- Among the labels `bs`, taken after `as`, no save is of a screen on which the field was
edited. -/
def Unedited (field : Field) (document : Fields) (as bs : List Act) : Prop :=
  ∀ pre s post, bs = pre ++ .updateUserInfo s :: post →
    (intended field document (as ++ pre)).typed s = none

/-- The client of the screen sees the field, and sees it as it is once the outstanding saves of
the other clients are applied as well. -/
def World.SeesLatest (w : World) (s : ℕ) (field : Field) : Prop :=
  (w.latest.string field.name).isSome ∧
    (w.seenFrom s).string field.name = w.latest.string field.name

/-- What a save of screen `s` after the labels `as` has to go by. A field that was edited since
the screen appeared last was set last by this edit. A field that was not was set last by a load
that was served while the client saw the latest value, and no edit of it was saved since. -/
def Informed (uid : String) (document : Fields) (field : Field) (as : List Act) (s : ℕ) : Prop :=
  match (intended field document as).typed s with
  | some text => lastOf (source s field) as = some (.edit text)
  | none => ∃ i, lastOf (source s field) as = some (.load i) ∧
      ∀ pre post, as = pre ++ .served s i :: post →
        Unedited field document pre (.served s i :: post) ∧
        ∀ u, Run step (initial uid document) pre u → u.SeesLatest s field

variable {uid : String} {document : Fields} {field : Field} {w w' : World} {as bs : List Act}
  {a : Act} {s : ℕ}

theorem intended_snoc : intended field document (as ++ [a]) =
    (intended field document as).step field a := by
  simp [intended, List.foldl_append]

theorem intendedValue_snoc_of_ne (ha : ∀ s, a ≠ .updateUserInfo s) :
    intendedValue field document (as ++ [a]) = intendedValue field document as := by
  rw [intendedValue, intended_snoc]
  cases a with
  | edit s field' text =>
    by_cases hf : field' = field
    · simp [Intended.step, intendedValue, hf]
    · simp [Intended.step, intendedValue, hf]
  | updateUserInfo s => exact absurd rfl (ha s)
  | _ => rfl

theorem intendedValue_snoc_save : intendedValue field document (as ++ [.updateUserInfo s]) =
    ((intended field document as).typed s).or (intendedValue field document as) := by
  rw [intendedValue, intended_snoc, Intended.step]
  cases (intended field document as).typed s <;> rfl

/-- Saves of screens on which the field was not edited intend nothing for it. -/
theorem intendedValue_of_unedited (h : Unedited field document as bs) :
    intendedValue field document (as ++ bs) = intendedValue field document as := by
  induction bs using List.reverseRecOn with
  | nil => rw [List.append_nil]
  | append_singleton bs b ih =>
    have hprior : Unedited field document as bs := by
      rintro pre s post rfl
      exact h pre s (post ++ [b]) (by simp)
    rw [← List.append_assoc]
    by_cases hb : ∃ s, b = .updateUserInfo s
    · obtain ⟨s, rfl⟩ := hb
      rw [intendedValue_snoc_save, h bs s [] rfl, Option.none_or, ih hprior]
    · rw [intendedValue_snoc_of_ne fun s hs => hb ⟨s, hs⟩, ih hprior]

/-- Only a tap on Save changes what the document comes to. -/
theorem step_latest_of_ne (h : step w a = some w') (ha : ∀ s, a ≠ .updateUserInfo s) :
    w'.latest = w.latest := by
  cases step_effect h with
  | @saved s => exact absurd rfl (ha s)
  | applied first => simp [World.latest, applyAll, first]
  | _ => rfl

theorem latest_saved {screen : Screen} (at_s : w.screens[s]? = some screen)
    (h : step w (.updateUserInfo s) = some w') :
    w'.latest.string field.name = some (field.text screen.vc) := by
  cases step_effect h with
  | @saved _ screen' at_s' =>
    obtain rfl : screen = screen' := Option.some.inj (at_s.symm.trans at_s')
    rw [World.latest, applyAll_append]
    exact Field.string_updateFields _ screen.vc field

/-- An informed save writes what is intended, if the earlier ones did. -/
theorem informed_save (hrun : Run step (initial uid document) as w)
    (hprior : ∀ pre u, pre <+: as → Run step (initial uid document) pre u →
      u.latest.string field.name = intendedValue field document pre)
    (hinformed : Informed uid document field as s) {screen : Screen}
    (at_s : w.screens[s]? = some screen) :
    some (field.text screen.vc) =
      ((intended field document as).typed s).or (intendedValue field document as) := by
  have hshows := (traced_run hrun).shown s screen field at_s
  unfold Informed at hinformed
  unfold Shows at hshows
  split at hinformed
  case h_1 text htyped =>
    rw [hinformed] at hshows
    rw [htyped, Option.some_or, hshows]
  case h_2 htyped =>
    obtain ⟨i, hlast, hload⟩ := hinformed
    rw [hlast] at hshows
    obtain ⟨pre, post, u, rfl, hu, htext⟩ := hshows
    obtain ⟨hunedited, hsees⟩ := hload pre post rfl
    obtain ⟨hsome, hsame⟩ := hsees u hu
    obtain ⟨value, hvalue⟩ := Option.isSome_iff_exists.mp hsome
    have hintended : some value = intendedValue field document pre :=
      hvalue.symm.trans (hprior pre u (List.prefix_append _ _) hu)
    rw [htyped, Option.none_or, intendedValue_of_unedited hunedited, ← hintended, htext, hsame,
      hvalue, Option.getD_some]

/-- What the document comes to is what is intended, after every part of the run. -/
theorem latest_intended (h : Run step (initial uid document) as w)
    (hinformed : ∀ pre s post, as = pre ++ .updateUserInfo s :: post →
      Informed uid document field pre s) :
    ∀ pre u, pre <+: as → Run step (initial uid document) pre u →
      u.latest.string field.name = intendedValue field document pre := by
  induction h with
  | nil =>
    intro pre u hpre hu
    obtain rfl := List.prefix_nil.mp hpre
    obtain rfl := run_nil_iff.mp hu
    rfl
  | @snoc as w a w' prior next ih =>
    have hprior := ih fun pre s post heq => hinformed pre s (post ++ [a]) (by simp [heq])
    intro pre u hpre hu
    rcases List.prefix_concat_iff.mp hpre with rfl | hpre
    · obtain rfl := (prior.snoc next).deterministic hu
      by_cases ha : ∃ s, a = .updateUserInfo s
      · obtain ⟨s, rfl⟩ := ha
        rw [intendedValue_snoc_save]
        cases step_effect next with
        | @saved _ screen at_s =>
          rw [latest_saved at_s next]
          exact informed_save prior hprior (hinformed as s [] rfl) at_s
      · have hne : ∀ s, a ≠ .updateUserInfo s := fun s hs => ha ⟨s, hs⟩
        rw [step_latest_of_ne next hne, intendedValue_snoc_of_ne hne]
        exact hprior as w (List.prefix_refl _) prior
    · exact hprior pre u hpre hu

/-- Once every save of a run of informed saves is applied, each field holds what was typed for it
on the screen of the last save whose user had edited it, or its initial value. -/
theorem saves_keep_edits (h : Run step (initial uid document) as w)
    (hinformed : ∀ pre s post, as = pre ++ .updateUserInfo s :: post →
      Informed uid document field pre s) (quiet : w.writes = []) :
    w.document.string field.name = intendedValue field document as := by
  have hlatest : w.latest = w.document := by simp [World.latest, applyAll, quiet]
  exact hlatest ▸ latest_intended h hinformed as w (List.prefix_refl _) h

def storedUser : Fields := [("userName", .string "n"), ("email", .string "e")]

/-- Two clients in turn load the profile, edit one field each and save. -/
def editsInTurn : List Act :=
  [.opened 0, .viewDidAppear 0, .served 0 0, .answered 0 0, .edit 0 .userName "m",
    .updateUserInfo 0, .applied, .opened 1, .viewDidAppear 1, .served 1 1, .answered 1 1,
    .edit 1 .email "f", .updateUserInfo 1, .applied]

theorem editsInTurn_informed {pre post : List Act}
    (heq : editsInTurn = pre ++ .updateUserInfo s :: post) :
    Informed "u" storedUser .userName pre s := by
  obtain ⟨n, hn, hat, rfl, -⟩ := eq_take_of_eq_append_cons heq
  obtain ⟨rfl, rfl⟩ | ⟨rfl, rfl⟩ : (n = 5 ∧ s = 0) ∨ (n = 12 ∧ s = 1) := by
    change n < 14 at hn
    interval_cases n <;> simp_all [editsInTurn]
  · exact (rfl : lastOf (source 0 .userName) (editsInTurn.take 5) = some (.edit "m"))
  · refine ⟨1, rfl, fun pre post heq => ?_⟩
    obtain ⟨n, hn, hat, rfl, rfl⟩ := eq_take_of_eq_append_cons heq
    obtain rfl : n = 9 := by
      change n < 12 at hn
      interval_cases n <;> simp_all [editsInTurn]
    constructor
    · intro pre s post heq
      obtain ⟨n, hn, hat, -, -⟩ := eq_take_of_eq_append_cons heq
      change n < 3 at hn
      interval_cases n <;> simp [editsInTurn] at hat
    · intro u hu
      have hexec : (exec step (initial "u" storedUser) (editsInTurn.take 9)).map (fun u =>
          (u.latest.string "userName", (u.seenFrom 1).string "userName")) =
          some (some "m", some "m") := rfl
      have hsame := run_iff_exec.mp hu ▸ hexec
      obtain ⟨hlatest, hseen⟩ := Prod.mk.inj (Option.some.inj hsame)
      exact ⟨by rw [Field.name, hlatest]; rfl, by rw [Field.name, hlatest, hseen]⟩

/-- The second save writes the name back, and the name is still the one of the first. -/
theorem editsInTurn_keeps_name : ∃ w, Run step (initial "u" storedUser) editsInTurn w ∧
    w.document.string "userName" = some "m" := by
  have hend : (exec step (initial "u" storedUser) editsInTurn).map (fun w => w.writes.length) =
      some 0 := rfl
  obtain ⟨w, hw, hquiet⟩ := run_of_exec_map hend
  have hname : w.document.string Field.userName.name =
      intendedValue .userName storedUser editsInTurn :=
    saves_keep_edits hw (fun pre s post heq => editsInTurn_informed heq)
      (List.length_eq_zero_iff.mp hquiet)
  exact ⟨w, hw, hname⟩

/-- The save is tapped before the load is answered: the empty fields are written. -/
def earlySave : List Act :=
  [.opened 0, .viewDidAppear 0, .updateUserInfo 0, .applied, .served 0 0, .answered 0 0]

theorem earlySave_loses_fields : ¬ ∀ uid document as w,
    Run step (initial uid document) as w → w.writes = [] → (∀ load ∈ w.loads, load.handled = true) →
      ∀ field : Field, w.document.string field.name = intendedValue field document as := by
  intro hall
  have hend : (exec step (initial "u" storedUser) earlySave).map (fun w =>
      (w.writes.length, w.loads.map Load.handled, w.document.string "userName")) =
      some (0, [true], some "") := rfl
  obtain ⟨w, hw, heq⟩ := run_of_exec_map hend
  obtain ⟨hquiet, hloads, hname⟩ := by simpa only [Prod.mk.injEq] using heq
  have hhandled : ∀ load ∈ w.loads, load.handled = true := by
    intro load hload
    have hmem := List.mem_map_of_mem (f := Load.handled) hload
    simpa [hloads] using hmem
  have hvalue := hall "u" storedUser earlySave w hw
    (List.length_eq_zero_iff.mp hquiet) hhandled .userName
  have hintended : intendedValue .userName storedUser earlySave = some "n" := rfl
  rw [hintended, show Field.userName.name = "userName" from rfl, hname] at hvalue
  simp at hvalue

end LoopChat.ProfileSaves
