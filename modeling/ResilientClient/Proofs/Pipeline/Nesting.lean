/-
Nested composites. A composite looks for the first of its handlers that is responsible, which may be a composite
again: the choice is made at each level anew, and once more by the attempt before all of them. It always comes to the
first responsible leaf (`first_leaf`). So a nest is as good as the flat composite of its leaves, and nobody but this
leaf is given a response that is handled.
-/
import ResilientClient.Pipeline.Execute
import ResilientClient.Proofs.Pipeline.Record

open ResilientClient.Fiber

namespace ResilientClient

variable {σ ε : Type}

/-- A handler, or a composite of nests. -/
inductive Nest (σ : Type) where
  | leaf (handler : StatusHandler σ)
  | composite (parts : List (Nest σ))

namespace Nest

/-- What holds of all leaves, and of a composite if it holds of its parts, holds of all nests. -/
theorem induction {P : Nest σ → Prop} (leaf : ∀ handler, P (.leaf handler))
    (composite : ∀ parts, (∀ part ∈ parts, P part) → P (.composite parts)) (nest : Nest σ) : P nest :=
  @Nest.rec σ P (fun parts => ∀ part ∈ parts, P part) leaf composite
    (fun _ h => absurd h List.not_mem_nil)
    (fun _ _ hfirst hrest _ h => (List.mem_cons.1 h).elim (fun heq => heq ▸ hfirst) (hrest _)) nest

mutual

/-- The handler of a nest. -/
def handler (wallClock : Nat) : Nest σ → StatusHandler σ
  | leaf handler => handler
  | composite parts => .composite wallClock (handlers wallClock parts)

/-- The handlers of some nests. -/
def handlers (wallClock : Nat) : List (Nest σ) → List (StatusHandler σ)
  | [] => []
  | part :: parts => part.handler wallClock :: handlers wallClock parts

end

mutual

/-- The leaves of a nest, from left to right. -/
def leaves : Nest σ → List (StatusHandler σ)
  | leaf handler => [handler]
  | composite parts => leavesOf parts

/-- The leaves of some nests. -/
def leavesOf : List (Nest σ) → List (StatusHandler σ)
  | [] => []
  | part :: parts => part.leaves ++ leavesOf parts

end

theorem handlers_eq_map (wallClock : Nat) (parts : List (Nest σ)) :
    handlers wallClock parts = parts.map (handler wallClock) := by
  induction parts with
  | nil => rfl
  | cons part parts ih => rw [handlers, List.map_cons, ih]

theorem leavesOf_eq_flatMap (parts : List (Nest σ)) : leavesOf parts = parts.flatMap leaves := by
  induction parts with
  | nil => rfl
  | cons part parts ih => rw [leavesOf, List.flatMap_cons, ih]

/-! ## The choice of a leaf -/

/-- A nest handles what one of its leaves handles. -/
theorem handles_eq_any (wallClock : Nat) (status : Http.Status) (nest : Nest σ) :
    (nest.handler wallClock).handles status = nest.leaves.any fun leaf => leaf.handles status := by
  induction nest using induction with
  | leaf h => exact (Bool.or_false _).symm
  | composite parts ih =>
    rw [handler, leaves, handlers_eq_map, leavesOf_eq_flatMap]
    change (parts.map _).any _ = _
    rw [List.any_map, Bool.eq_iff_iff]
    simp only [List.any_eq_true, List.mem_flatMap, Function.comp_apply]
    constructor
    · rintro ⟨part, hpart, hhandles⟩
      rw [ih part hpart, List.any_eq_true] at hhandles
      obtain ⟨leaf, hleaf, hhandles⟩ := hhandles
      exact ⟨leaf, ⟨part, hpart, hleaf⟩, hhandles⟩
    · rintro ⟨leaf, ⟨part, hpart, hleaf⟩, hhandles⟩
      refine ⟨part, hpart, ?_⟩
      rw [ih part hpart, List.any_eq_true]
      exact ⟨leaf, hleaf, hhandles⟩

/-- The first responsible leaf of some nests is that of the first nest that is responsible. -/
theorem find?_leavesOf (wallClock : Nat) (status : Http.Status) (parts : List (Nest σ)) :
    (leavesOf parts).find? (fun leaf => leaf.handles status) =
      (parts.find? fun part => (part.handler wallClock).handles status).bind fun part =>
        part.leaves.find? fun leaf => leaf.handles status := by
  induction parts with
  | nil => rfl
  | cons part parts ih =>
    rw [leavesOf, List.find?_append, List.find?_cons, handles_eq_any]
    cases hpart : part.leaves.any fun leaf => leaf.handles status with
    | true =>
      obtain ⟨leaf, hleaf⟩ := Option.isSome_iff_exists.1 (List.find?_isSome.2 (List.any_eq_true.1 hpart))
      rw [hleaf, Option.some_or, Option.bind_some, hleaf]
    | false =>
      have hnone : part.leaves.find? (fun leaf => leaf.handles status) = none := by
        rwa [List.find?_eq_none, ← List.any_eq_false]
      rw [hnone, Option.none_or, ih]

/-- The first responsible leaf decodes. -/
theorem decode_of_find? (wallClock : Nat) (method : String) (response : Response) (nest : Nest σ)
    {leaf : StatusHandler σ} (h : nest.leaves.find? (fun leaf => leaf.handles response.status) = some leaf) :
    (nest.handler wallClock).decode method response = leaf.decode method response := by
  induction nest using induction with
  | leaf only =>
    obtain rfl : leaf = only := List.mem_singleton.1 (List.mem_of_find?_eq_some h)
    rfl
  | composite parts ih =>
    rw [leaves, find?_leavesOf wallClock, Option.bind_eq_some_iff] at h
    obtain ⟨part, hpart, hleaf⟩ := h
    -- the part that is chosen here is the one with the first responsible leaf, so the choice goes on inside it
    have hchosen : (handlers wallClock parts).find? (fun handler => handler.handles response.status) =
        some (part.handler wallClock) := by
      rw [handlers_eq_map, List.find?_map]
      exact congrArg (Option.map _) hpart
    rw [handler, ← ih part (List.mem_of_find?_eq_some hpart) hleaf]
    simp only [StatusHandler.composite, hchosen]

/-- A composite nest is the flat composite of its leaves: without a responsible one both fall back on the default. -/
theorem handler_composite (wallClock : Nat) (parts : List (Nest σ)) :
    (composite parts).handler wallClock = .composite wallClock (composite parts).leaves := by
  have hhandles := fun status => handles_eq_any wallClock status (composite parts)
  have hdecode : ∀ method response, ((composite parts).handler wallClock).decode method response =
      (StatusHandler.composite wallClock (composite parts).leaves).decode method response := by
    intro method response
    cases hfind : (composite parts).leaves.find? fun leaf => leaf.handles response.status with
    | some leaf =>
      rw [decode_of_find? wallClock method response _ hfind]
      simp only [StatusHandler.composite, hfind]
    | none =>
      have hnone : (handlers wallClock parts).find? (fun handler => handler.handles response.status) = none := by
        have hunhandled := hhandles response.status
        rw [List.find?_eq_none, ← List.any_eq_false] at hfind
        rw [List.find?_eq_none, ← List.any_eq_false]
        exact hunhandled.trans hfind
      rw [handler]
      simp only [StatusHandler.composite, hnone, hfind]
  generalize (composite parts).handler wallClock = nested at hhandles hdecode
  obtain ⟨handles, decode⟩ := nested
  exact congrArg₂ StatusHandler.mk (funext hhandles) (funext fun method => funext (hdecode method))

end Nest

/-! ## Who is given a response -/

/-- What a handler keeps, and the responses that handlers were given to decode, each with the number of its handler,
the latest first. -/
structure Watched (σ : Type) where
  own : σ
  taken : List (Nat × Response)

/-- The handler of a number, on record. -/
def StatusHandler.watched (handler : StatusHandler σ) (number : Nat) : StatusHandler (Watched σ) where
  handles := handler.handles
  decode method response :=
    (Fiber.modify fun w => { w with taken := (number, response) :: w.taken }).andThen fun _ =>
      (handler.decode method response).zoom Watched.own fun own w => { w with own }

/-- A watched handler is given the response once, and does with it what it does unwatched. -/
theorem StatusHandler.ends_watched {handler : StatusHandler σ} {number : Nat} {method : String} {response : Response}
    {t t' : Instant} {s s' : Watched σ} {ws : List (Write (Watched σ))} {e : Error}
    (h : Ends ((handler.watched number).decode method response) t s ws e t' s') :
    gainedIn Watched.taken ws = [(number, response)] ∧
      ∃ vs, Ends (handler.decode method response) t s.own vs e t' s'.own := by
  obtain ⟨us, _, t₁, s₁, vs, rfl, htaken, hdecode⟩ := (ends_andThen _ _).1 h
  obtain ⟨rfl, rfl, rfl⟩ := ends_modify.1 htaken
  obtain ⟨hown, hkept⟩ := ends_zoom (fun _ _ => rfl) _ hdecode
  refine ⟨?_, _, hown⟩
  have hnone : gainedIn Watched.taken vs = [] := gainedIn_of_kept fun w hw => by rw [hkept w hw]
  rw [gainedIn_append, hnone]
  simp

namespace Nest

mutual

/-- The nest with its leaves on record, numbered from left to right. -/
def numbered (first : Nat) : Nest σ → Nest (Watched σ)
  | leaf handler => leaf (handler.watched first)
  | composite parts => composite (numberedAll first parts)

/-- Some nests with their leaves on record. -/
def numberedAll (first : Nat) : List (Nest σ) → List (Nest (Watched σ))
  | [] => []
  | part :: parts => part.numbered first :: numberedAll (first + part.leaves.length) parts

end

theorem leaves_numbered (nest : Nest σ) : ∀ first : Nat,
    (nest.numbered first).leaves = (nest.leaves.zipIdx first).map fun leaf => leaf.1.watched leaf.2 := by
  induction nest using induction with
  | leaf handler => exact fun _ => rfl
  | composite parts ih =>
    intro first
    rw [numbered, leaves, leaves]
    induction parts generalizing first with
    | nil => rfl
    | cons part parts ihparts =>
      rw [numberedAll, leavesOf, leavesOf, List.zipIdx_append, List.map_append, ih part List.mem_cons_self,
        ihparts (fun other hother => ih other (List.mem_cons_of_mem _ hother))]

/-- To number the leaves does not change which of them is the first responsible one. -/
theorem find?_numbered {nest : Nest σ} {status : Http.Status} {before after : List (StatusHandler σ)}
    {leaf : StatusHandler σ} (hleaves : nest.leaves = before ++ leaf :: after) (hleaf : leaf.handles status = true)
    (hbefore : ∀ other ∈ before, other.handles status = false) :
    (nest.numbered 0).leaves.find? (fun leaf => leaf.handles status) = some (leaf.watched before.length) := by
  rw [leaves_numbered, hleaves, List.zipIdx_append, List.zipIdx_cons, List.map_append, List.find?_append]
  have hnone : ((before.zipIdx 0).map fun leaf => leaf.1.watched leaf.2).find?
      (fun leaf => leaf.handles status) = none := by
    refine List.find?_eq_none.2 fun watched hmem => ?_
    obtain ⟨⟨other, number⟩, hother, rfl⟩ := List.mem_map.1 hmem
    have hother : other.handles status = false := hbefore other (List.fst_mem_of_mem_zipIdx hother)
    simpa [StatusHandler.watched] using hother
  rw [hnone, Option.none_or, List.map_cons, Nat.zero_add]
  exact List.find?_cons_of_pos hleaf

end Nest

/-! ## Attempts -/

/-- An attempt asks its handler of statuses about a status first, and to decode only what it handles. -/
theorem Pipeline.classify_congr (exchange : Exchange ε) {handler other : StatusHandler (Outside ε)}
    (hhandles : ∀ status, handler.handles status = other.handles status)
    (hdecode : ∀ method response, handler.handles response.status = true →
      handler.decode method response = other.decode method response) (call : Call) (response : Response) :
    classify { exchange with statusHandler := handler } call response =
      classify { exchange with statusHandler := other } call response := by
  unfold classify
  dsimp only
  rw [← hhandles]
  split
  · rfl
  · split
    · rename_i hhandled
      rw [hdecode _ _ hhandled]
    · rfl

namespace Nest

/-- A nest of handlers handles the statuses that one of its leaves handles. A response of such a status becomes the
failure that the first responsible leaf makes of it, on every path, and no other leaf is given it. So a composite
nest is the flat composite of its leaves, and an attempt cannot tell any nest from that. -/
theorem first_leaf (wallClock : Nat) (nest : Nest (Outside ε)) :
    (∀ status, (nest.handler wallClock).handles status = true ↔
      ∃ leaf ∈ nest.leaves, leaf.handles status = true) ∧
    (∀ response, (nest.handler wallClock).handles response.status = true → ∃ before leaf after,
      nest.leaves = before ++ leaf :: after ∧ leaf.handles response.status = true ∧
      (∀ other ∈ before, other.handles response.status = false) ∧
      ∀ method, (nest.handler wallClock).decode method response = leaf.decode method response ∧
        ∀ t s ws e t' s',
          Ends (((nest.numbered 0).handler wallClock).decode method response) t s ws e t' s' →
            gainedIn Watched.taken ws = [(before.length, response)] ∧
              ∃ vs, Ends (leaf.decode method response) t s.own vs e t' s'.own) ∧
    (∀ parts, nest = .composite parts → nest.handler wallClock = .composite wallClock nest.leaves) ∧
    ∀ (exchange : Exchange ε) (call : Call) (response : Response),
      Pipeline.classify { exchange with statusHandler := nest.handler wallClock } call response =
        Pipeline.classify { exchange with statusHandler := .composite wallClock nest.leaves } call response := by
  have hhandles : ∀ status, (nest.handler wallClock).handles status =
      (StatusHandler.composite wallClock nest.leaves).handles status :=
    fun status => handles_eq_any wallClock status nest
  have hfind : ∀ response : Response, (nest.handler wallClock).handles response.status = true →
      ∃ leaf, nest.leaves.find? (fun leaf => leaf.handles response.status) = some leaf := by
    intro response hhandled
    rw [hhandles] at hhandled
    exact Option.isSome_iff_exists.1 (List.find?_isSome.2 (List.any_eq_true.1 hhandled))
  refine ⟨fun status => ?_, fun response hhandled => ?_, fun parts hparts => ?_, fun exchange call response => ?_⟩
  · rw [handles_eq_any, List.any_eq_true]
  · obtain ⟨leaf, hleaf⟩ := hfind response hhandled
    obtain ⟨hresponsible, before, after, hleaves, hbefore⟩ := List.find?_eq_some_iff_append.1 hleaf
    have hbefore : ∀ other ∈ before, other.handles response.status = false := by simpa using hbefore
    refine ⟨before, leaf, after, hleaves, hresponsible, hbefore, fun method => ⟨?_, fun t s ws e t' s' hends => ?_⟩⟩
    · exact decode_of_find? wallClock method response nest hleaf
    · rw [decode_of_find? wallClock method response _ (find?_numbered hleaves hresponsible hbefore)] at hends
      exact StatusHandler.ends_watched hends
  · subst hparts
    exact handler_composite wallClock parts
  · refine Pipeline.classify_congr exchange hhandles (fun method response hhandled => ?_) call response
    obtain ⟨leaf, hleaf⟩ := hfind response hhandled
    rw [decode_of_find? wallClock method response nest hleaf]
    simp only [StatusHandler.composite, hleaf]

/-- Handles one status, with a text that quotes the body. -/
def quoting (code : Nat) (label : String) : StatusHandler (Outside Nat) :=
  .ofPredicate 0 (fun status => status.code = code) fun _ _ _ body =>
    label ++ String.ofList (Text.Utf8.decodeLossy body)

/-- Composites in composites, an empty one among them. -/
def deepNest : Nest (Outside Nat) :=
  .composite [.composite [], .composite [.composite [.leaf (quoting 418 "teapot: ")], .leaf (quoting 409 "conflict: ")],
    .leaf (.default 0)]

/-- The answer to a version that is not the latest. -/
def conflictResponse : Response := .ofElements ⟨409⟩ [Bytes.ofText "v2"]

/-- The leaf that is given the response comes before one that is responsible too. -/
theorem first_leaf_conflict :
    (deepNest.handler 0).handles ⟨409⟩ = true ∧
      (deepNest.handler 0).decode "Api#put()" conflictResponse =
        .done (.decoded "Api#put()" ⟨409⟩ none "conflict: v2") ∧
      ∃ ws e t' s', Ends (((deepNest.numbered 0).handler 0).decode "Api#put()" conflictResponse) 0 ⟨⟨[], 0⟩, []⟩ ws e
        t' s' ∧ gainedIn Watched.taken ws = [(1, conflictResponse)] := by
  obtain ⟨-, hdecodes, -⟩ := first_leaf 0 deepNest
  obtain ⟨before, leaf, after, hleaves, hleaf, hbefore, hdecode⟩ := hdecodes conflictResponse rfl
  obtain ⟨hleaf, hnumber⟩ : leaf = quoting 409 "conflict: " ∧ before.length = 1 := by
    rcases before with _ | ⟨first, _ | ⟨second, rest⟩⟩
    · cases hleaves
      cases hleaf
    · cases hleaves
      exact ⟨rfl, rfl⟩
    · obtain ⟨-, hrest⟩ := List.cons.inj hleaves
      obtain ⟨rfl, -⟩ := List.cons.inj hrest
      cases hbefore _ (List.mem_cons_of_mem _ List.mem_cons_self)
  obtain ⟨hdecode, hpaths⟩ := hdecode "Api#put()"
  have hends := ends_trail (((deepNest.numbered 0).handler 0).decode "Api#put()" conflictResponse) 0 ⟨⟨[], 0⟩, []⟩
  refine ⟨rfl, ?_, _, _, _, _, hends, hnumber ▸ (hpaths _ _ _ _ _ _ hends).1⟩
  rw [hdecode, hleaf]
  rfl

end Nest

end ResilientClient
