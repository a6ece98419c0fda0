/-
Status handlers: which statuses count as failures, and what failure a response becomes. Of a
composite the first handler that is responsible decides.
-/
import ResilientClient.Response

namespace ResilientClient

/-- A rule that turns responses of some statuses into failures. -/
structure StatusHandler (σ : Type) where
  /-- Whether a status counts as a failure. -/
  handles : Http.Status → Bool
  /-- The failure that a response to the method of that key becomes. -/
  decode : String → Response → Fiber σ Error

namespace StatusHandler

variable {σ : Type}

/-- The failure of a status with a preview of its body; a body that fails gives its own failure. -/
def decodeStatus (wallClock limit : Nat) (method : String) (response : Response) :
    Fiber σ Error :=
  (response.body.preview limit).andThen fun
    | .ok preview =>
      .done (.status method response.status preview response.contentType?
        (response.retryHint? wallClock))
    | .error e => .done e

/-- Handles 4xx and 5xx statuses and keeps at most `limit` bytes of the body. -/
def ofPreviewLimit (wallClock limit : Nat) : StatusHandler σ where
  handles status := status.isClientError || status.isServerError
  decode := decodeStatus wallClock (min limit previewLimit)

/-- Handles 4xx and 5xx statuses. -/
def default (wallClock : Nat) : StatusHandler σ := ofPreviewLimit wallClock previewLimit

/-- What a decoder is told of a response: the method, the status, the headers and the body. -/
abbrev Decoder := String → Http.Status → Http.Headers → Bytes → String

/-- Handles the statuses of a predicate with a decoder of its own, which sees no body when it is
too large. -/
def ofPredicate (wallClock : Nat) (predicate : Http.Status → Bool) (decoder : Decoder) :
    StatusHandler σ where
  handles := predicate
  decode method response :=
    let decoded (bytes : Bytes) : Fiber σ Error :=
      .done (.decoded method response.status (response.retryHint? wallClock)
        (decoder method response.status response.headers bytes))
    (response.body.readAll previewLimit).andThen fun
      | .ok bytes => decoded bytes
      | .error (.bodyTooLarge _ _) => decoded []
      | .error e => .done e

/-- Handles what one of the handlers handles, by the first that does. -/
def composite (wallClock : Nat) (handlers : List (StatusHandler σ)) : StatusHandler σ where
  handles status := handlers.any fun handler => handler.handles status
  decode method response :=
    match handlers.find? fun handler => handler.handles response.status with
    | some handler => handler.decode method response
    | none => (default wallClock).decode method response

end StatusHandler

end ResilientClient
