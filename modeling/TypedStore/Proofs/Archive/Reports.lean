/-
  TypedStore/Proofs/Archive/Reports.lean
  ======================================
  **What an archive reports.**

  The only operations of an archive that report anything are those that commit, and whether a commit
  succeeds or not, it reports only about files (`commit_reports`): that the data file has been written,
  or what could not be tidied up. So what a store reports about its values is reported by the store
  alone (`Archive.quiet`).
-/
import TypedStore.Proofs.Archive.Mutations
import TypedStore.Proofs.Reports

namespace TypedStore

/-- The events of commits. -/
def Event.OfCommit : Event → Prop
  | .wroteData .. | .notPutBack .. | .notDiscarded .. => True
  | _ => False

/-- All that the operations of a medium report is about commits. -/
structure Medium.Quiet {σ : Type} (medium : Medium σ) : Prop where
  persist (key value : Bytes) : Op.Reports Event.OfCommit (medium.persist key value)
  retrieve (key : Bytes) : Op.Reports Event.OfCommit (medium.retrieve key)
  remove (key : Bytes) : Op.Reports Event.OfCommit (medium.remove key)
  keys : Op.Reports Event.OfCommit medium.keys
  contains (key : Bytes) : Op.Reports Event.OfCommit (medium.contains key)
  clear : Op.Reports Event.OfCommit medium.clear

namespace FileSet

open Op

/-! ### Single files -/

theorem discard_reports (path : Path) : Reports Event.OfCommit (discard path) := by
  have hremove : Reports Event.OfCommit
      (Op.change fun disk => disk.remove path : Op DiskFault Disk Unit) := reports_change _
  refine hremove.attempt_bind (fun _ => reports_pure ()) ?_
  intro fault
  cases fault <;> first | exact reports_pure () | exact reports_report trivial

theorem writeTemporary_reports (path : Path) (bytes : Bytes) :
    Reports Event.OfCommit (writeTemporary path bytes) :=
  Reports.attempt_bind (reports_change _) (fun _ => reports_pure ())
    fun fault => (discard_reports _).bind fun _ => reports_throw fault

theorem settle_reports (path : Path) : Reports Event.OfCommit (settle path) :=
  Reports.attempt_bind (reports_change _) (fun _ => reports_pure ())
    fun fault => (discard_reports _).bind fun _ => reports_throw fault

theorem writeAtomic_reports (path : Path) (bytes : Bytes) :
    Reports Event.OfCommit (writeAtomic path bytes) :=
  (writeTemporary_reports path bytes).bind fun _ => settle_reports path

/-! ### Older generations -/

theorem moveIfPresent_reports (source target : Path) :
    Reports Event.OfCommit (moveIfPresent source target) := by
  apply reports_state.bind
  intro disk
  split
  · exact reports_change _
  · exact reports_pure ()

theorem moveUpFrom_reports (files : FileSet) (generation : Nat) :
    Reports Event.OfCommit (moveUpFrom files generation) := by
  induction generation with
  | zero => exact reports_pure ()
  | succ generation ih =>
    exact (moveIfPresent_reports _ _).bind fun _ => (moveIfPresent_reports _ _).bind fun _ => ih

theorem rotate_reports (files : FileSet) (keep : Nat) (committed : Option Bytes) :
    Reports Event.OfCommit (rotate files keep committed) := by
  cases committed with
  | none => exact reports_pure ()
  | some previous =>
    unfold rotate
    dsimp only
    split
    · exact (moveUpFrom_reports files _).bind fun _ =>
        (writeAtomic_reports _ _).bind fun _ => writeAtomic_reports _ _
    · exact reports_pure ()

/-! ### The commit -/

theorem putBack_reports (files : FileSet) (committed : Option Bytes) :
    Reports Event.OfCommit (putBack files committed) := by
  cases committed with
  | none =>
    exact Reports.attempt_bind (reports_change _) (fun _ => reports_pure ())
      fun _ => reports_report trivial
  | some previous =>
    exact (writeAtomic_reports _ _).attempt_bind (fun _ => reports_pure ())
      fun _ => reports_report trivial

/-- Whether a commit succeeds or not, it reports only that it has written the data file, or which files
    it could not put back or remove. -/
theorem commit_reports (files : FileSet) (keep : Nat) (committed : Option Bytes) (bytes : Bytes) :
    Reports Event.OfCommit (commit files keep committed bytes) := by
  have hstage : Reports Event.OfCommit (stage files bytes) := by
    apply (writeTemporary_reports _ _).bind
    intro _
    exact (writeTemporary_reports _ _).attempt_bind (fun _ => reports_pure ())
      fun fault => (discard_reports _).bind fun _ => reports_throw fault
  have hinstall : Reports Event.OfCommit (install files keep committed) := by
    refine Reports.attempt_bind ((rotate_reports files keep committed).bind
      fun _ => reports_change _) (fun _ => reports_pure ()) fun fault => ?_
    exact (discard_reports _).bind fun _ => (discard_reports _).bind fun _ => reports_throw fault
  have hfinish : Reports Event.OfCommit (finish files committed) := by
    refine Reports.attempt_bind (reports_change _) (fun _ => reports_pure ()) fun fault => ?_
    exact (discard_reports _).bind fun _ => (putBack_reports files committed).bind
      fun _ => reports_throw fault
  exact hstage.bind fun _ => hinstall.bind fun _ => hfinish.bind fun _ => reports_report trivial

end FileSet

/-! ### The operations of a medium -/

namespace Archive

open Op

theorem replace_reports (entries : Json.RawObject) :
    Reports Event.OfCommit (replace entries) := by
  apply reports_state.bind
  intro before
  refine Reports.bind (FileSet.commit_reports _ _ _ _).within fun _ => ?_
  exact reports_state.bind fun _ => reports_setState _

theorem keyText_reports (key : Bytes) : Reports Event.OfCommit (keyText key) :=
  reports_ofExcept _

theorem valueText_reports (value : Bytes) : Reports Event.OfCommit (valueText value) :=
  reports_ofExcept _

theorem current_reports : Reports Event.OfCommit current :=
  reports_state.bind fun _ => reports_pure _

theorem quiet : medium.Quiet where
  persist key value := by
    rw [persist_eq]
    refine (keyText_reports key).bind fun key => (valueText_reports value).bind fun value => ?_
    exact current_reports.bind fun _ => replace_reports _
  retrieve key := (keyText_reports key).bind fun key => current_reports.bind fun _ => reports_pure _
  remove key := by
    rw [remove_eq]
    refine (keyText_reports key).bind fun key => current_reports.bind fun entries => ?_
    split
    · exact (replace_reports _).bind fun _ => reports_pure true
    · exact reports_pure false
  keys := current_reports.bind fun _ => reports_pure _
  contains key := (keyText_reports key).bind fun key => current_reports.bind fun _ => reports_pure _
  clear := by
    rw [clear_eq]
    refine current_reports.bind fun entries => ?_
    split
    · exact reports_pure 0
    · exact (replace_reports _).bind fun _ => reports_pure _

end Archive

end TypedStore
