/-
Stages that only note. Most of what a pipeline does is to note what happens and to let its collaborators work. A law
for which both is all right is obeyed by all of these stages (`Noting`), and so a new law is shown for them at once:
what is left is to say which occurrences it allows and what it asks of the collaborators.
-/
import ResilientClient.Pipeline.Balance
import ResilientClient.Pipeline.Execute
import ResilientClient.Pipeline.Guard
import ResilientClient.Pipeline.Retry
import ResilientClient.Proofs.Pipeline.Preview

open ResilientClient.Fiber

namespace ResilientClient.Pipeline

variable {ε α : Type}

/-- The law allows to note occurrences of the kind `P`, and work of the collaborators that obeys the law `L`. -/
structure Noting (P : Occurrence → Prop) (L : Outside ε → Outside ε → Prop) (K : World ε → World ε → Prop) : Prop where
  note : ∀ s os, (∀ o ∈ os, P o) → K s (s.note os)
  work : ∀ s o, L s.outside o → K s { s with outside := o }

namespace Noting

variable {P : Occurrence → Prop} {L : Outside ε → Outside ε → Prop} {K : World ε → World ε → Prop}

section Stages

variable (h : Noting P L K)
include h

theorem refl (s : World ε) : K s s := h.note s [] fun _ hmem => absurd hmem List.not_mem_nil

theorem notes {os : List Occurrence} (hos : ∀ o ∈ os, P o) : Obeys K (Stage.note os : Stage ε Unit) :=
  obeys_modify fun s => h.note s os hos

theorem one {o : Occurrence} (ho : P o) : Obeys K (Stage.note [o] : Stage ε Unit) :=
  h.notes fun o' ho' => by obtain rfl := List.mem_singleton.1 ho'; exact ho

theorem outside {work : Fiber (Outside ε) α} (hwork : Obeys L work) : Obeys K (Stage.outside work) :=
  obeys_zoom (fun _ _ => rfl) hwork h.work

theorem choose {resolver : Resolver ε} (hresolver : ∀ service, Obeys L (resolver service)) (service : String)
    (hfound : ∀ outcome, P (.resolved service outcome)) (server : Option Server) :
    Obeys K (choose resolver service server) := by
  cases server with
  | some server => exact obeys_done _
  | none =>
    exact obeys_andThen (h.outside (hresolver service)) fun outcome =>
      obeys_andThen (h.one (hfound outcome)) fun _ => obeys_done _

theorem send {exchange : Exchange ε} {request : Request} (htransport : Obeys L (exchange.transport request))
    (htold : ∀ event, ∀ o ∈ World.told exchange.listeners event, P o) (hsent : Obeys K (Stage.note [.sent request]))
    (hanswered : ∀ outcome, P (.answered request outcome)) : Obeys K (send exchange request) := by
  refine obeys_andThen (h.notes (htold _)) fun _ => obeys_andThen hsent fun _ => obeys_andThen obeys_now fun _ =>
    obeys_andThen (h.outside htransport) fun answer => ?_
  cases answer with
  | error e => exact obeys_andThen (h.one (hanswered _)) fun _ => obeys_done _
  | ok response =>
    exact obeys_andThen (h.one (hanswered _)) fun _ => obeys_andThen obeys_now fun _ =>
      obeys_andThen (h.notes (htold _)) fun _ => obeys_done _

theorem classify {exchange : Exchange ε}
    (hhandler : ∀ method response, Obeys L (exchange.statusHandler.decode method response)) (call : Call)
    (response : Response) : Obeys K (classify exchange call response) := by
  unfold Pipeline.classify
  split
  · exact obeys_done _
  · split
    · exact obeys_andThen (h.outside (hhandler _ _)) fun _ => obeys_done _
    · split
      · exact obeys_done _
      · refine obeys_andThen (BodyStream.obeys_readAll h.refl _ _) fun result => ?_
        cases result with
        | error e => exact obeys_done _
        | ok bytes => exact obeys_done _

theorem executing {exchange : Exchange ε} {call : Call}
    (htransport : ∀ request, Obeys L (exchange.transport request))
    (hhandler : ∀ method response, Obeys L (exchange.statusHandler.decode method response))
    (htold : ∀ event, ∀ o ∈ World.told exchange.listeners event, P o)
    (hsent : ∀ request, prepare exchange.interceptors call = .ok request → Obeys K (Stage.note [.sent request]))
    (hanswered : ∀ request outcome, P (.answered request outcome)) : Obeys K (executing exchange call) := by
  unfold Pipeline.executing
  split
  · exact obeys_done _
  · rename_i request hrequest
    refine obeys_andThen (h.send (htransport _) htold (hsent request hrequest) (hanswered _)) fun answer => ?_
    cases answer with
    | error e => exact obeys_done _
    | ok response => exact h.classify hhandler call response

theorem recover {fallback : Option (Fallback ε)} {call : Call} {cause : Error}
    (hfallback : ∀ f, fallback = some f → ∀ method args cause, Obeys L (f method args cause))
    (hline : P (.logged (fallbackLine call cause))) (hrecovered : P (.recovered call.method cause)) :
    Obeys K (recover fallback call cause) := by
  cases fallback with
  | none => exact obeys_done _
  | some f =>
    exact obeys_andThen (h.one hline) fun _ => obeys_andThen (h.one hrecovered) fun _ =>
      h.outside (hfallback f rfl _ _ _)

end Stages

end Noting

/-- A limit for a call changes nothing about the law that it obeys. -/
theorem obeys_limited {K : World ε → World ε → Prop} {work : Stage ε Outcome} (h : Obeys K work)
    (limit : Option Duration) (method : String) : Obeys K (limited limit method work) := by
  cases limit with
  | none => exact h
  | some limit =>
    refine obeys_andThen (obeys_within h _) fun result => ?_
    cases result with
    | some outcome => exact obeys_done _
    | none => exact obeys_done _

/-- An outcome is reported, and perhaps the fallback is asked. -/
theorem obeys_conclude {K : World ε → World ε → Prop} {fallback : Option (Fallback ε)} {call : Call} {permit : Permit}
    (hreport : ∀ verdict, Obeys K (report permit verdict)) (hrecover : ∀ cause, Obeys K (recover fallback call cause))
    (o : Outcome) : Obeys K (conclude fallback call permit o) := by
  cases o with
  | ok response => exact obeys_andThen (hreport _) fun _ => obeys_done _
  | error e =>
    simp only [conclude]
    split
    · exact obeys_andThen (hreport _) fun _ => obeys_done _
    · exact obeys_andThen (hreport _) fun _ => hrecover _

/-! ## Layers -/

/-- A property of stages that sequences keep, and that whatever obeys a law has. -/
structure Layering (K : World ε → World ε → Prop) (P : {α : Type} → Stage ε α → Prop) : Prop where
  plain : ∀ {α : Type} {x : Stage ε α}, Obeys K x → P x
  andThen : ∀ {α β : Type} {x : Stage ε α} {f : α → Stage ε β}, P x → (∀ a, P (f a)) → P (x.andThen f)

namespace Layering

variable {Q : Occurrence → Prop} {L : Outside ε → Outside ε → Prop} {K : World ε → World ε → Prop}
  {P : {α : Type} → Stage ε α → Prop}

/-- Retries have the property if the work has it, by induction on the attempts that the counter has room for. -/
theorem attemptsFrom (h : Layering K P) (hnoting : Noting Q L K) {policy : RetryPolicy} {listeners : List Listener}
    {work : Stage ε Outcome} {method : String} (hwork : P work)
    (hexhausted : ∀ attempt e, Q (.logged (exhaustedLine method attempt e)))
    (hretry : ∀ attempt e delay, Q (.logged (retryLine method attempt e delay)))
    (htold : ∀ event, ∀ o ∈ World.told listeners event, Q o) (room : Nat) :
    ∀ attempt, P (attemptsFrom policy listeners work method room attempt) := by
  induction room with
  | zero => exact fun attempt => h.plain (obeys_done _)
  | succ room ih =>
    intro attempt
    refine h.andThen hwork fun outcome => ?_
    cases outcome with
    | ok response => exact h.plain (obeys_done _)
    | error e =>
      dsimp only
      split
      · exact h.plain (obeys_done _)
      · exact h.plain (obeys_andThen (hnoting.one (hexhausted _ _)) fun _ => obeys_done _)
      · refine h.andThen (h.plain (hnoting.one (hretry _ _ _))) fun _ => ?_
        refine h.andThen (h.plain (hnoting.notes (htold _))) fun _ => ?_
        exact h.andThen (h.plain (obeys_sleep hnoting.refl _)) fun _ => ih _

/-- A balanced call has the property if all calls of the service inside have it, again by induction on the room of
the counter. -/
theorem balancing (h : Layering K P) (hnoting : Noting Q L K) {resolver : Option (Resolver ε)} {inner : Service ε}
    (hresolver : ∀ look, resolver = some look → ∀ service, Obeys L (look service)) (hinner : ∀ call, P (inner call))
    (hfound : ∀ service outcome, Q (.resolved service outcome)) (hlines : ∀ line, Q (.logged line))
    (config : BalancerConfig) (call : Call) : P (balancing config resolver inner call) := by
  unfold Pipeline.balancing
  split
  · exact hinner call
  · rename_i service _
    cases resolver with
    | none => exact h.plain (obeys_done _)
    | some look =>
      suffices hfrom : ∀ room state, P (balanceFrom config look inner call service room state) from hfrom _ _
      have hchoice : ∀ server, Obeys K (choose look service server) :=
        hnoting.choose (hresolver look rfl) service (hfound service)
      intro room
      induction room with
      | zero =>
        intro state
        unfold balanceFrom
        refine h.plain (obeys_andThen (hchoice _) fun choice => ?_)
        cases choice <;> exact obeys_done _
      | succ room ih =>
        intro state
        unfold balanceFrom
        refine h.andThen (h.plain (hchoice _)) fun choice => ?_
        cases choice with
        | error e => exact h.plain (obeys_done _)
        | ok server =>
          refine h.andThen (hinner _) fun outcome => ?_
          cases outcome with
          | ok response => exact h.plain (obeys_done _)
          | error e =>
            dsimp only
            split
            · exact h.plain (obeys_done _)
            · split
              · exact h.andThen (h.plain (hnoting.one (hlines _))) fun _ => ih _
              · split
                · exact h.andThen (h.plain (hnoting.one (hlines _))) fun _ => ih _
                · exact h.plain (obeys_andThen (hnoting.one (hlines _)) fun _ => obeys_done _)

end Layering

end ResilientClient.Pipeline
