import EPlatform.MediaAssets.Tasks

/-!
# The video provider's receiver

What `VideoWebhookView.post` writes down of a verified event.
-/

namespace EPlatform.MediaAssets

def namespaced (providerName : String) : String := "video:" ++ providerName

def videoWebhookView (providerName : String) : Receiver ProviderWebhookEvent where
  provider := namespaced providerName
  eventId := (·.eventId)
  eventType := (·.eventType)

end EPlatform.MediaAssets
