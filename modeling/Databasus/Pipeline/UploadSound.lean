import Databasus.Pipeline.RunBackup

/-
  The upload beside a dump.

  An upload sees the end of its source only when the chain has
  closed the pipe, and one that fails has ended the backup's
  context before it answers.

  Main declarations:
    * `UploadSound`
    * `UploadSound.ended`
    * `UploadSound.frame`
    * `UploadSound.deliver`
-/

------------------------------------------------------------
-- The Upload
------------------------------------------------------------

namespace Databasus

namespace Pipeline

open Foundation
open Storages.Files (WriteReceipt)

variable {codec : ZstdCodec}
variable {s s' : BackupRun codec}
variable {error : Option BackupError}

def Upload.HasFailed
    (upload : Upload) : Prop :=
  ∃ error, upload.outcome = some (.error error)

/- An upload tells of a failure after it ended the backup. -/
def Ended
    (s : BackupRun codec)
    (receipt : WriteReceipt) : Option BackupError → Prop
  | none => s.upload.outcome = some (.ok receipt)
  | some _ =>
      s.upload.HasFailed ∧ s.backupCause.isSome = true

def StageSound
    (s : BackupRun codec) : Prop :=
  match s.upload.stage with
  | .notStarted =>
      s.upload.outcome = none ∧ s.upload.errors = none
  | .reading =>
      s.upload.outcome = none ∧ s.upload.errors = none
  | .closingSource _ =>
      s.upload.HasFailed ∧ s.upload.errors = none
  | .callingOnFailure _ =>
      s.upload.HasFailed ∧ s.upload.errors = none
  | .sendingReceipt receipt error =>
      Ended s receipt error ∧ s.upload.errors = none
  | .sendingError receipt error =>
      Ended s receipt error ∧ s.upload.errors = none ∧
        s.upload.receipts = some receipt
  | .done =>
      ∃ receipt error,
        Ended s receipt error ∧
          s.upload.receipts = some receipt ∧
            s.upload.errors = some error

/- An upload sees the end of what a closed chain has written. -/
structure UploadSound
    (s : BackupRun codec) : Prop where
  cause : s.backupCause = some .eof → s.upload.HasFailed
  writeEnd :
    s.pipe.writeEnd = some .eof →
      s.isChainClosed = true ∨ s.upload.HasFailed
  sawEOF :
    s.upload.sawEOF = true → s.isChainClosed = true
  saved :
    ∀ receipt,
      s.upload.outcome = some (.ok receipt) →
        s.upload.sawEOF = true
  stage : StageSound s

/- An upload that has answered is done. -/
theorem UploadSound.done_of_errors
    (hSound : UploadSound s)
    (hErrors : s.upload.errors = some error) :
    s.upload.stage = .done := by
  have hStage := hSound.stage
  unfold StageSound at hStage
  rw [hErrors] at hStage
  cases hAt : s.upload.stage with
  | notStarted =>
      rw [hAt] at hStage
      cases hStage.2
  | reading =>
      rw [hAt] at hStage
      cases hStage.2
  | closingSource told =>
      rw [hAt] at hStage
      cases hStage.2
  | callingOnFailure told =>
      rw [hAt] at hStage
      cases hStage.2
  | sendingReceipt receipt told =>
      rw [hAt] at hStage
      cases hStage.2
  | sendingError receipt told =>
      rw [hAt] at hStage
      cases hStage.2.1
  | done => rfl

/- What an answer of the upload means. -/
theorem UploadSound.ended
    (hSound : UploadSound s)
    (hErrors : s.upload.errors = some error) :
    ∃ receipt,
      Ended s receipt error ∧
        s.upload.receipts = some receipt := by
  have hStage := hSound.stage
  unfold StageSound at hStage
  rw [hSound.done_of_errors hErrors] at hStage
  rcases hStage with
    ⟨receipt, told, hEnded, hReceipt, hTold⟩
  rw [hErrors] at hTold
  cases hTold
  exact ⟨receipt, hEnded, hReceipt⟩

/- An upload that succeeded saw a chain that was closed. -/
theorem UploadSound.closed_of_saved
    (hSound : UploadSound s)
    (hErrors : s.upload.errors = some none) :
    s.isChainClosed = true := by
  rcases hSound.ended hErrors with ⟨receipt, hEnded, _⟩
  exact hSound.sawEOF (hSound.saved receipt hEnded)

/- Contexts only end, and the steps of others leave the upload. -/
theorem UploadSound.frame
    (hSound : UploadSound s)
    (hUpload : s'.upload = s.upload)
    (hClosed :
      s.isChainClosed = true → s'.isChainClosed = true)
    (hCause :
      s.backupCause.isSome = true →
        s'.backupCause = s.backupCause)
    (hNewCause : s'.backupCause = some .eof →
      s.backupCause = some .eof)
    (hWriteEnd :
      s'.pipe.writeEnd = some .eof →
        s.pipe.writeEnd = some .eof ∨
          s'.isChainClosed = true ∨ s.upload.HasFailed) :
    UploadSound s' := by
  have hEnded :
      ∀ receipt error,
        Ended s receipt error → Ended s' receipt error := by
    intro receipt error hOld
    cases error with
    | none =>
        change s'.upload.outcome = _
        rw [hUpload]
        exact hOld
    | some told =>
        refine ⟨?_, ?_⟩
        · rw [hUpload]
          exact hOld.1
        · rw [hCause hOld.2]
          exact hOld.2
  refine
    { cause := ?_
      writeEnd := ?_
      sawEOF := ?_
      saved := ?_
      stage := ?_ }
  · intro hEof
    rw [hUpload]
    exact hSound.cause (hNewCause hEof)
  · intro hEof
    rw [hUpload]
    rcases hWriteEnd hEof with hOld | hNew | hFailed
    · rcases hSound.writeEnd hOld with hOpen | hFailed
      · exact Or.inl (hClosed hOpen)
      · exact Or.inr hFailed
    · exact Or.inl hNew
    · exact Or.inr hFailed
  · rw [hUpload]
    exact fun hSaw => hClosed (hSound.sawEOF hSaw)
  · rw [hUpload]
    exact hSound.saved
  · have hStage := hSound.stage
    unfold StageSound at hStage ⊢
    rw [hUpload]
    split at hStage
    · exact hStage
    · exact hStage
    · exact hStage
    · exact hStage
    · exact ⟨hEnded _ _ hStage.1, hStage.2⟩
    · exact ⟨hEnded _ _ hStage.1, hStage.2⟩
    · rcases hStage with ⟨receipt, told, hOld, hRest⟩
      exact ⟨receipt, told, hEnded _ _ hOld, hRest⟩

/- An upload that reads has not ended. -/
theorem UploadSound.outcome_of_reading
    (hSound : UploadSound s)
    (hReading : s.upload.stage = .reading) :
    s.upload.outcome = none ∧ s.upload.errors = none := by
  have hStage := hSound.stage
  unfold StageSound at hStage
  rw [hReading] at hStage
  exact hStage

/- An upload that has not failed did not end the pipe. -/
theorem UploadSound.not_failed
    (hSound : UploadSound s)
    (hReading : s.upload.stage = .reading) :
    ¬ s.upload.HasFailed := by
  rintro ⟨error, hError⟩
  rw [(hSound.outcome_of_reading hReading).1] at hError
  cases hError

theorem UploadSound.readEnd
    (hSound : UploadSound s)
    (hReading : s.upload.stage = .reading)
    (hEnd : s.pipe.readError .closedPipe = some .eof) :
    UploadSound
      { s with upload := { s.upload with sawEOF := true } } := by
  have hWriteEnd : s.pipe.writeEnd = some .eof := by
    refine Pipe.readError_some ?_ hEnd
    exact nofun
  have hClosed : s.isChainClosed = true :=
    (hSound.writeEnd hWriteEnd).resolve_right
      (hSound.not_failed hReading)
  exact
    { cause := hSound.cause
      writeEnd := hSound.writeEnd
      sawEOF := fun _ => hClosed
      saved := fun _ _ => rfl
      stage := by
        unfold StageSound
        rw [hReading]
        exact hSound.outcome_of_reading hReading }

theorem UploadSound.endUpload
    (hSound : UploadSound s)
    (hReading : s.upload.stage = .reading)
    {outcome : Except BackupError WriteReceipt}
    (hSaw :
      ∀ receipt, outcome = .ok receipt →
        s.upload.sawEOF = true) :
    UploadSound (s.endUpload outcome) := by
  have hRunning := hSound.not_failed hReading
  have hErrors := (hSound.outcome_of_reading hReading).2
  refine
    { cause := fun hEof => absurd (hSound.cause hEof) hRunning
      writeEnd := fun hEof =>
        Or.inl
          ((hSound.writeEnd hEof).resolve_right hRunning)
      sawEOF := hSound.sawEOF
      saved := fun receipt hSaved =>
        hSaw receipt (Option.some.inj hSaved)
      stage := ?_ }
  cases outcome with
  | ok receipt => exact ⟨rfl, hErrors⟩
  | error error => exact ⟨⟨error, rfl⟩, hErrors⟩

theorem UploadSound.deliver
    (hSound : UploadSound s)
    (hTaken : s.deliver = some s') :
    UploadSound s' := by
  have hStage := hSound.stage
  unfold StageSound at hStage
  unfold BackupRun.deliver at hTaken
  split at hTaken
  · cases hTaken
  · cases hTaken
  · next error hClosing =>
      rw [hClosing] at hStage
      cases hTaken
      exact
        { cause := hSound.cause
          writeEnd := hSound.writeEnd
          sawEOF := hSound.sawEOF
          saved := hSound.saved
          stage := hStage }
  · next error hCalling =>
      rw [hCalling] at hStage
      cases hTaken
      refine
        { cause := fun _ => hStage.1
          writeEnd := hSound.writeEnd
          sawEOF := hSound.sawEOF
          saved := hSound.saved
          stage := ⟨⟨hStage.1, ?_⟩, hStage.2⟩ }
      cases hCause : s.backupCause with
      | none => rfl
      | some cause => rfl
  · next receipt error hSending =>
      rw [hSending] at hStage
      cases hTaken
      refine
        { cause := hSound.cause
          writeEnd := hSound.writeEnd
          sawEOF := hSound.sawEOF
          saved := hSound.saved
          stage := ⟨?_, hStage.2, rfl⟩ }
      cases error with
      | none => exact hStage.1
      | some told => exact hStage.1
  · next receipt error hSending =>
      rw [hSending] at hStage
      cases hTaken
      refine
        { cause := hSound.cause
          writeEnd := hSound.writeEnd
          sawEOF := hSound.sawEOF
          saved := hSound.saved
          stage := ⟨receipt, error, ?_, hStage.2.2, rfl⟩ }
      cases error with
      | none => exact hStage.1
      | some told => exact hStage.1
  · cases hTaken

end Pipeline

end Databasus
