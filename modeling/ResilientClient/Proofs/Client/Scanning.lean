/-
The two ways to take a result. To invoke a method for a single element is to start the same stream and to
read it at once, so what comes out is what a scan of the items of that stream comes to
(`single_scans_stream`), wherever on its way the body has been read before.
-/
import ResilientClient.Proofs.Client.Invocation

open ResilientClient.Fiber

namespace ResilientClient

variable {ε α : Type}

/-! ## Scans -/

/-- What reading items in order, up to a limit on the size of all of them, comes to. -/
inductive Scans (limit : Nat) : List (Except Error Bytes) → Except Error (Option Bytes) → Prop
  /-- All of them are elements and within the limit; nothing at all is no element. -/
  | whole {elements : List Bytes} : elements.flatten.length ≤ limit →
      Scans limit (elements.map .ok)
        (.ok (if elements.flatten.isEmpty then none else some elements.flatten))
  /-- A failure comes first. -/
  | failed {elements : List Bytes} {e : Error} {rest : List (Except Error Bytes)} :
      elements.flatten.length ≤ limit → Scans limit (elements.map .ok ++ .error e :: rest) (.error e)
  /-- An element that exceeds the limit comes first. -/
  | tooLarge {elements : List Bytes} {element : Bytes} {rest : List (Except Error Bytes)} :
      elements.flatten.length ≤ limit → limit < elements.flatten.length + element.length →
      Scans limit (elements.map .ok ++ .ok element :: rest)
        (.error (.bodyTooLarge limit (elements.flatten.length + element.length)))

/-- The scan as a recursion on the items, behind the bytes that have been read. -/
def scanBehind (limit : Nat) : Bytes → List (Except Error Bytes) → Except Error (Option Bytes)
  | held, [] => .ok (if held.isEmpty then none else some held)
  | _, .error e :: _ => .error e
  | held, .ok element :: rest =>
    if limit < held.length + element.length then
      .error (.bodyTooLarge limit (held.length + element.length))
    else scanBehind limit (held ++ element) rest

theorem scanBehind_elements {limit : Nat} {rest : List (Except Error Bytes)} (elements : List Bytes) :
    ∀ {held : Bytes}, held.length + elements.flatten.length ≤ limit →
      scanBehind limit held (elements.map .ok ++ rest) =
        scanBehind limit (held ++ elements.flatten) rest := by
  induction elements with
  | nil => intro held _; simp
  | cons element elements ih =>
    intro held hfits
    rw [List.flatten_cons, List.length_append] at hfits
    have hnot : ¬ limit < held.length + element.length := by omega
    rw [List.map_cons, List.cons_append, scanBehind, if_neg hnot, ih, List.flatten_cons, List.append_assoc]
    rw [List.length_append]
    omega

section Scanning

variable {limit : Nat} {items : List (Except Error Bytes)} {r r' : Except Error (Option Bytes)}

theorem Scans.eq_scanBehind (h : Scans limit items r) : r = scanBehind limit [] items := by
  cases h with
  | @whole elements hfits =>
    rw [← List.append_nil (elements.map _), scanBehind_elements elements (by simpa using hfits)]
    rfl
  | @failed elements e rest hfits =>
    rw [scanBehind_elements elements (by simpa using hfits)]
    rfl
  | @tooLarge elements element rest hfits hlarge =>
    rw [scanBehind_elements elements (by simpa using hfits), scanBehind, List.nil_append, if_pos hlarge]

/-- A scan comes to one result only. -/
theorem Scans.unique (h : Scans limit items r) (h' : Scans limit items r') : r = r' :=
  h.eq_scanBehind.trans h'.eq_scanBehind.symm

end Scanning

/-! ## Bodies as items -/

namespace BodyStream

/-- The items of a body up to its first failure. -/
def handed : BodyStream → List (Except Error Bytes)
  | [] => []
  | .pause _ :: rest => handed rest
  | .chunk bytes :: rest => .ok bytes :: handed rest
  | .failure e :: _ => [.error e]

/-- To read a body behind chunks that fit is to scan these and the items of the body. -/
theorem scans_of_readBehind {σ : Type} {limit : Nat} {body : BodyStream} : ∀ {chunks : List Bytes}
    {t t' : Instant} {s s' : σ} {ws : List (Write σ)} {result : Except Error Bytes},
    chunks.reverse.flatten.length ≤ limit →
    Ends (readBehind limit chunks chunks.reverse.flatten.length body) t s ws result t' s' →
    Scans limit (chunks.reverse.map .ok ++ handed body)
      (result.map fun bytes => if bytes.isEmpty then none else some bytes) := by
  induction body with
  | nil =>
    intro chunks t t' s s' ws result hfits h
    obtain ⟨-, rfl, -, -⟩ := ends_done.1 h
    rw [handed, List.append_nil]
    exact .whole hfits
  | cons item rest ih =>
    intro chunks t t' s s' ws result hfits h
    cases item with
    | failure e =>
      obtain ⟨-, rfl, -, -⟩ := ends_done.1 h
      exact .failed hfits
    | pause d =>
      obtain ⟨us, _, t₁, s₁, vs, -, -, hrest⟩ := (ends_andThen _ _).1 h
      exact ih hfits hrest
    | chunk bytes =>
      simp only [readBehind] at h
      split at h
      · rename_i hlarge
        obtain ⟨-, rfl, -, -⟩ := ends_done.1 h
        exact .tooLarge hfits hlarge
      · rename_i hnot
        have hsize : (bytes :: chunks).reverse.flatten.length =
            chunks.reverse.flatten.length + bytes.length := by simp
        rw [← hsize] at h hnot
        have hscan := ih (Nat.not_lt.1 hnot) h
        rwa [List.reverse_cons, List.map_append, List.append_assoc] at hscan

end BodyStream

/-! ## Invocations -/

namespace Method

variable {m : Method ε} {args : List Argument} {t t' : Instant} {s s' : World ε} {ws : List (Write (World ε))}

/-- Reads the items of a stream that was started at an instant as a single element. -/
def gather (m : Method ε) (started : Instant) (items : BodyStream) :
    Stage ε (Except Error (Option Bytes)) :=
  (items.readAll m.maxBodySize).andThen fun
    | .error e => (m.tellFailure started e).andThen fun _ => .done (.error e)
    | .ok bytes =>
      if bytes.isEmpty then .done (.ok none)
      else (m.tellElement bytes).andThen fun _ => .done (.ok (some bytes))

/-- To invoke a method for a single element is to start its stream and to gather it. -/
theorem invokeSingle_eq_startStream (m : Method ε) (args : List Argument) :
    m.invokeSingle args = m.startStream args m.gather := by
  unfold invokeSingle observed startStream
  congr 1
  funext started
  rw [andThen_assoc]
  congr 1
  funext outcome
  cases outcome with
  | error e => rfl
  | ok response =>
    simp only [element, gather, itemsOf, andThen_assoc]
    congr 1
    funext result
    cases result with
    | error e => rfl
    | ok bytes =>
      dsimp only
      split
      · rfl
      · rw [andThen_assoc]
        rfl

theorem invokeStream_none (m : Method ε) (args : List Argument) :
    m.invokeStream args none = m.startStream args fun started => m.deliver started none :=
  if_neg nofun

theorem ends_startStream {hand : Instant → BodyStream → Stage ε α} {a : α} :
    Ends (m.startStream args hand) t s ws a t' s' ↔ ∃ us r t₁ s₁ vs, ws = us ++ vs ∧
      Ends (m.dispatch args) t s us r t₁ s₁ ∧ Ends (hand t (itemsOf r)) t₁ s₁ vs a t' s' := by
  unfold startStream
  rw [ends_andThen]
  constructor
  · rintro ⟨us, started, t₀, s₀, vs, rfl, hnow, hrest⟩
    obtain ⟨rfl, rfl, rfl, rfl⟩ := ends_now.1 hnow
    exact (ends_andThen _ _).1 hrest
  · intro hrest
    exact ⟨[], t, t, s, ws, rfl, ends_now.2 ⟨rfl, rfl, rfl, rfl⟩, (ends_andThen _ _).2 hrest⟩

/-- Alone, a stream that is started is handed over from where its dispatch ends. -/
theorem run_startStream (m : Method ε) (args : List Argument) (hand : Instant → BodyStream → Stage ε α)
    (t : Instant) (s : World ε) :
    let dispatched := (m.dispatch args).run t s
    (m.startStream args hand).run t s =
      (hand t (itemsOf dispatched.1)).run dispatched.2.1 dispatched.2.2 :=
  run_andThen (m.dispatch args) (fun outcome => hand t (itemsOf outcome)) t s

theorem scans_of_gather {started : Instant} {items : BodyStream} {a : Except Error (Option Bytes)}
    (h : Ends (m.gather started items) t s ws a t' s') : Scans m.maxBodySize items.handed a := by
  obtain ⟨us, result, t₁, s₁, vs, -, hread, hend⟩ := (ends_andThen _ _).1 h
  have hscan := BodyStream.scans_of_readBehind (Nat.zero_le _) hread
  cases result with
  | error e =>
    obtain ⟨us', _, t₂, s₂, vs', -, -, hdone⟩ := (ends_andThen _ _).1 hend
    obtain ⟨-, rfl, -, -⟩ := ends_done.1 hdone
    exact hscan
  | ok bytes =>
    dsimp only at hend
    simp only [Except.map] at hscan
    split at hend
    · rename_i hempty
      obtain ⟨-, rfl, -, -⟩ := ends_done.1 hend
      rwa [if_pos hempty] at hscan
    · rename_i hsome
      obtain ⟨us', _, t₂, s₂, vs', -, -, hdone⟩ := (ends_andThen _ _).1 hend
      obtain ⟨-, rfl, -, -⟩ := ends_done.1 hdone
      rwa [if_neg hsome] at hscan

/-- Without a limit a stream is handed over up to its first failure or its end. -/
theorem eq_handed_of_deliver {started : Instant} {items : BodyStream} {p : List (Except Error Bytes) × Bool}
    (h : Ends (m.deliver started none items) t s ws p t' s') : p = (items.handed, true) := by
  induction items generalizing t t' s s' ws p with
  | nil => exact (ends_done.1 h).2.1
  | cons item rest ih =>
    cases item with
    | pause d =>
      obtain ⟨us, _, t₁, s₁, vs, -, -, hrest⟩ := (ends_andThen _ _).1 h
      exact ih hrest
    | chunk bytes =>
      obtain ⟨us, _, t₁, s₁, vs, -, -, hrest⟩ := (ends_andThen _ _).1 h
      obtain ⟨us', later, t₂, s₂, vs', -, hlater, hdone⟩ := (ends_andThen _ _).1 hrest
      obtain ⟨-, rfl, -, -⟩ := ends_done.1 hdone
      rw [ih hlater]
      rfl
    | failure e =>
      obtain ⟨us, _, t₁, s₁, vs, -, -, hdone⟩ := (ends_andThen _ _).1 h
      exact (ends_done.1 hdone).2.1

end Method

/-- The results that a method can be invoked for as a single element, from a time and a state on, are those
that a scan of the items of a stream of the method, read to its end, comes to. Alone, both invocations have
the same one. -/
theorem single_scans_stream (m : Method ε) (args : List Argument) (t : Instant) (s : World ε) :
    (∀ a, (∃ ws t' s', Ends (m.invokeSingle args) t s ws a t' s') ↔
      ∃ items ws t' s', Ends (m.invokeStream args none) t s ws (items, true) t' s' ∧
        Scans m.maxBodySize items a) ∧
    ∀ a, Scans m.maxBodySize ((m.invokeStream args none).run t s).1.1 a ↔
      a = ((m.invokeSingle args).run t s).1 := by
  rw [Method.invokeSingle_eq_startStream, Method.invokeStream_none]
  constructor
  · intro a
    constructor
    · rintro ⟨ws, t', s', hsingle⟩
      obtain ⟨us, r, t₁, s₁, vs, -, hdispatch, hgather⟩ := Method.ends_startStream.1 hsingle
      obtain ⟨vs', hdeliver⟩ := ends_run (m.deliver t none (Method.itemsOf r)) t₁ s₁
      rw [Method.eq_handed_of_deliver hdeliver] at hdeliver
      exact ⟨_, _, _, _, Method.ends_startStream.2 ⟨us, r, t₁, s₁, vs', rfl, hdispatch, hdeliver⟩,
        Method.scans_of_gather hgather⟩
    · rintro ⟨items, ws, t', s', hstream, hscans⟩
      obtain ⟨us, r, t₁, s₁, vs, -, hdispatch, hdeliver⟩ := Method.ends_startStream.1 hstream
      obtain ⟨rfl, -⟩ := Prod.mk.inj (Method.eq_handed_of_deliver hdeliver)
      obtain ⟨vs', hgather⟩ := ends_run (m.gather t (Method.itemsOf r)) t₁ s₁
      rw [← hscans.unique (Method.scans_of_gather hgather)] at hgather
      exact ⟨_, _, _, Method.ends_startStream.2 ⟨us, r, t₁, s₁, vs', rfl, hdispatch, hgather⟩⟩
  · intro a
    rw [Method.run_startStream, Method.run_startStream]
    generalize (m.dispatch args).run t s = dispatched
    obtain ⟨vs, hdeliver⟩ := ends_run (m.deliver t none (Method.itemsOf dispatched.1)) dispatched.2.1 dispatched.2.2
    obtain ⟨vs', hgather⟩ := ends_run (m.gather t (Method.itemsOf dispatched.1)) dispatched.2.1 dispatched.2.2
    have hscans := Method.scans_of_gather hgather
    rw [Method.eq_handed_of_deliver hdeliver]
    constructor
    · exact fun h => h.unique hscans
    · rintro rfl
      exact hscans

end ResilientClient
