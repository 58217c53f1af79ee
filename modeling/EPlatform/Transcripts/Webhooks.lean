import EPlatform.Transcripts.Tasks

/-!
# The transcription provider's receiver

What `TranscriptionWebhookView.post` writes down of a verified result. The job id is the event id: a provider reports once
per job.
-/

namespace EPlatform.Transcripts

def namespaced (providerName : String) : String := "transcription:" ++ providerName

/-- `result.status.lower()`, which is ASCII's for a text outside the vocabulary. -/
def TranscriptionStatus.lower : TranscriptionStatus → String
  | .processing => "processing"
  | .completed => "completed"
  | .failed => "failed"
  | .other status => status.toLower

def transcriptionWebhookView (providerName : String) : Receiver TranscriptionResult where
  provider := namespaced providerName
  eventId := (·.jobId)
  eventType result := "transcription." ++ result.status.lower

end EPlatform.Transcripts
