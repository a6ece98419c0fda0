/-
The accounts of a guard do not depend on its fallback. Its accounts are the breakers, what the service
inside keeps and was called with, and what the timeline says of admissions, rejections and reports. The
same calls, with a fallback and without, change them in the same way at the same times, and every call that
ends was served as its own way through the guard says (`fallback_not_in_books`).
-/
import ResilientClient.Proofs.Fiber.Alike
import ResilientClient.Proofs.Fiber.Together
import ResilientClient.Proofs.Pipeline.Served

namespace ResilientClient

/-- What the timeline says of the breakers. -/
inductive Entry where
  | admitted (permit : Permit)
  | rejected (key : String)
  | reported (permit : Permit) (verdict : Verdict)
deriving DecidableEq, Repr

/-- An occurrence that the accounts keep. -/
def Occurrence.entry? : Occurrence → Option Entry
  | .admitted permit => some (.admitted permit)
  | .rejected key => some (.rejected key)
  | .reported permit verdict => some (.reported permit verdict)
  | _ => none

namespace Pipeline

open ResilientClient.Fiber

variable {ι φ : Type}

/-! ## The view of the accounts -/

/-- The books of a guard: the breakers, the calls of the service inside, and the entries of the timeline,
the latest first. -/
structure Books where
  breakers : BreakerRegistry
  calls : List (Instant × Call)
  entries : List Entry
deriving DecidableEq, Repr

def books (w : World (Sides ι φ)) : Books :=
  ⟨w.breakers, w.outside.own.calls, w.past.filterMap Occurrence.entry?⟩

/-- All that the service inside and the breakers depend on. -/
structure Accounts (ι : Type) where
  books : Books
  inner : ι

def accounts (w : World (Sides ι φ)) : Accounts ι := ⟨books w, innerOf w⟩

section View

variable {w w' : World (Sides ι φ)}

/-- A note adds its entries to the books. -/
theorem books_note (w : World (Sides ι φ)) (os : List Occurrence) : books (w.note os) =
    { books w with entries := (os.filterMap Occurrence.entry?).reverse ++ (books w).entries } := by
  simp [books, World.note, List.filterMap_reverse]

theorem accounts_note (os : List Occurrence) (h : accounts w = accounts w') :
    accounts (w.note os) = accounts (w'.note os) := by
  have hbooks : books w = books w' := congrArg Accounts.books h
  have hinner : innerOf w = innerOf w' := congrArg Accounts.inner h
  unfold accounts
  rw [books_note, books_note, hbooks]
  exact congrArg _ hinner

theorem accounts_withBreakers (breakers : BreakerRegistry) (h : accounts w = accounts w') :
    accounts { w with breakers } = accounts { w' with breakers } := by
  simp only [accounts, books, innerOf, Accounts.mk.injEq, Books.mk.injEq] at h ⊢
  exact ⟨⟨trivial, h.1.2.1, h.1.2.2⟩, h.2⟩

theorem breakers_of_accounts (h : accounts w = accounts w') : w.breakers = w'.breakers :=
  congrArg (fun a => a.books.breakers) h

end View

/-! ## What is the same with and without a fallback -/

section Same

variable {v : Accounts ι}

theorem same_acquire (key : String) :
    Same (accounts : World (Sides ι φ) → Accounts ι) (acquire key) (acquire key) v := by
  refine same_modifyGet fun t w w' h => ?_
  have hb := breakers_of_accounts h
  rw [hb]
  exact ⟨rfl, accounts_note _ (accounts_withBreakers _ h)⟩

theorem same_report (permit : Permit) (verdict : Verdict) :
    Same (accounts : World (Sides ι φ) → Accounts ι) (report permit verdict) (report permit verdict) v := by
  refine same_modifyGet fun t w w' h => ?_
  have hb := breakers_of_accounts h
  rw [hb]
  exact ⟨rfl, accounts_note _ (accounts_withBreakers _ h)⟩

/-- The service inside sees the accounts and nothing else. -/
theorem same_attended (inner : Inside ι) (call : Call) :
    Same (accounts : World (Sides ι φ) → Accounts ι) (attended inner call) (attended inner call) v := by
  refine Same.andThen (same_modifyGet fun t w w' h => ⟨rfl, ?_⟩) fun _ v =>
    same_zoom (fun w w' h => congrArg Accounts.inner h) (fun p w w' h => ?_) (inner call) v
  · simp only [accounts, books, innerOf, attend, Accounts.mk.injEq, Books.mk.injEq] at h ⊢
    exact ⟨⟨h.1.1, by rw [h.1.2.1], h.1.2.2⟩, h.2⟩
  · simp only [accounts, books, innerOf, putInner, Accounts.mk.injEq, Books.mk.injEq] at h ⊢
    exact ⟨h.1, trivial⟩

theorem same_limited (limit : Option Duration) (inner : Inside ι) (call : Call) :
    Same (accounts : World (Sides ι φ) → Accounts ι) (limited limit call.method (attended inner call))
      (limited limit call.method (attended inner call)) v := by
  cases limit with
  | none => exact same_attended inner call
  | some d =>
    refine (same_attended inner call).within.andThen fun result v => ?_
    cases result with
    | none => exact same_done _
    | some o => exact same_done _

/-- A recovery is not in the accounts. -/
theorem silent_recover (fallback : Option (StandIn φ)) (call : Call) (cause : Error) :
    (recover (fallback.map standingIn) call cause).Silent (accounts : World (Sides ι φ) → Accounts ι) := by
  cases fallback with
  | none => exact silent_done _
  | some f =>
    have hnote : ∀ os : List Occurrence, os.filterMap Occurrence.entry? = [] →
        (Stage.note os).Silent (accounts : World (Sides ι φ) → Accounts ι) := by
      intro os hos
      refine silent_modify fun w => ?_
      unfold accounts
      rw [books_note, hos]
      rfl
    -- what a fallback does is seen outside only in its own state and record
    let seen : Outside (Sides ι φ) → List (Instant × Call) × ι := fun o => (o.own.calls, o.own.inner)
    have hown : Silent seen ((f call.method call.args cause).zoom fallbackOf putFallback) :=
      silent_zoom (fun _ => ()) (fun _ => ()) (fun _ => rfl) (by intro p o _; rfl) (silent_blind _)
    have hwork : Silent seen (standingIn f call.method call.args cause) :=
      silent_andThen (silent_modify fun o => rfl) fun _ => hown
    refine silent_andThen (hnote _ rfl) fun _ => silent_andThen (hnote _ rfl) fun _ =>
      silent_zoom seen (fun a => (a.books.calls, a.inner)) (fun _ => rfl) ?_ hwork
    intro o w h
    simp only [seen, Prod.mk.injEq] at h
    simp only [accounts, books, innerOf, h.1, h.2]

/-- After the report of its outcome a call is done with the accounts. -/
theorem alike_conclude (f f' : Option (StandIn φ)) (call : Call) (permit : Permit) (o : Outcome) :
    Alike accounts (conclude (f.map standingIn) call permit o)
      (conclude (f'.map standingIn) call permit o) v := by
  cases o with
  | ok response =>
    exact (same_report permit .success).andThen fun _ _ => .rest ⟨silent_done _, silent_done _⟩
  | error e =>
    simp only [conclude]
    split
    · exact (same_report permit .ignored).andThen fun _ _ => .rest ⟨silent_done _, silent_done _⟩
    · exact (same_report permit .failure).andThen fun _ _ =>
        .rest ⟨silent_recover f call e, silent_recover f' call e⟩

/-- Whatever the fallbacks, a call does the same to the accounts. -/
theorem alike_guarding (key : String) (limit : Option Duration) (f f' : Option (StandIn φ))
    (inner : Inside ι) (call : Call) :
    Alike accounts (guardingBoth key limit f inner call) (guardingBoth key limit f' inner call) v := by
  refine (same_acquire key).andThen fun answer v => ?_
  cases answer with
  | none =>
    have hlog : (Stage.log (rejectedLine call key)).Silent (accounts : World (Sides ι φ) → Accounts ι) := by
      refine silent_modify fun w => ?_
      unfold accounts
      rw [books_note]
      rfl
    exact .rest ⟨silent_andThen hlog fun _ => silent_recover f call _,
      silent_andThen hlog fun _ => silent_recover f' call _⟩
  | some permit =>
    have hundo : ∀ w w' : World (Sides ι φ), accounts w = accounts w' →
        accounts (release permit w) = accounts (release permit w') := by
      intro w w' h
      unfold release
      rw [breakers_of_accounts h]
      exact accounts_withBreakers _ h
    exact ((same_limited limit inner call).protect hundo).andThen fun o v =>
      alike_conclude f f' call permit o

end Same

/-! ## The accounts of many calls -/

/-- Calls to the guard of a key, each made at its time, as tasks. -/
def callers (key : String) (limit : Option Duration) (fallback : Option (StandIn φ)) (inner : Inside ι)
    (calls : List (Instant × Call)) : List (Task (World (Sides ι φ)) Outcome) :=
  calls.map fun c => ⟨c.1, guardingBoth key limit fallback inner c.2⟩

/-- A call that has ended was served. -/
theorem served_of_result? {key : String} {limit : Option Duration} {fallback : Option (StandIn φ)}
    {inner : Inside ι} {calls : List (Instant × Call)} {t : Instant} {w : World (Sides ι φ)}
    {turns : List Turn} {number : Nat} {r : Outcome} :
    let c := (Crowd.start t w (callers key limit fallback inner calls)).run turns
    c.result? number = some r → ∃ due call, calls[number]? = some (due, call) ∧
      Served key limit fallback inner call due (c.writesOf number) r := by
  intro c h
  obtain ⟨first, hfirst, s₀, t₁, s₁, hends⟩ := Crowd.ended_run h
  obtain ⟨⟨due, call⟩, hcall, rfl⟩ := Option.map_eq_some_iff.1 (List.getElem?_map ▸ hfirst)
  exact ⟨due, call, hcall, served_of_ends hends⟩

/-- Calls that run together, each from the end of a wait on, all end, and each of them is served. -/
theorem served_together (key : String) (limit : Option Duration) (fallback : Option (StandIn φ))
    (inner : Inside ι) (calls : List (Nat × Call)) (t : Instant) (w : World (Sides ι φ)) :
    let r := (Fiber.all (calls.map fun c =>
      pauseFor c.1 id (guardingBoth key limit fallback inner c.2))).run t w
    r.1.length = calls.length ∧ ∀ (number : Nat) (o : Outcome), r.1[number]? = some o → ∃ wait call ws,
      calls[number]? = some (wait, call) ∧ Served key limit fallback inner call (t + wait) ws o := by
  intro r
  obtain ⟨turns, -, -, hlength, hresults⟩ :=
    Crowd.run_all (calls.map fun c => (c.1, guardingBoth key limit fallback inner c.2)) t w
  simp only [List.map_map, Function.comp_def, List.length_map] at hlength hresults
  refine ⟨hlength, fun number o ho => ?_⟩
  have htasks : calls.map (fun c => Task.mk (t + c.1) (guardingBoth key limit fallback inner c.2)) =
      callers key limit fallback inner (calls.map fun c => (t + c.1, c.2)) := by
    simp only [callers, List.map_map, Function.comp_def]
  have hresult := (hresults number).trans ho
  rw [htasks] at hresult
  obtain ⟨due, call', hdue, hserved⟩ := served_of_result? hresult
  rw [List.getElem?_map] at hdue
  obtain ⟨⟨wait, call⟩, hcall, heq⟩ := Option.map_eq_some_iff.1 hdue
  cases heq
  exact ⟨wait, call, _, hcall, hserved⟩

/-- The same calls with a fallback and without change the books in the same way at the same times, and with
some turns all of them end. Every call that ends was rejected, or admitted and reported once with what the
service inside came to; only the rejected and the failed ones were handed to the fallback, once each, and
end as it does. -/
theorem fallback_not_in_books (key : String) (limit : Option Duration) (inner : Inside ι)
    (fallback : StandIn φ) (calls : List (Instant × Call)) (t : Instant) (w : World (Sides ι φ)) :
    let run := fun f turns => (Crowd.start t w (callers key limit f inner calls)).run turns
    (∀ turns, (run (some fallback) turns).changes books = (run none turns).changes books ∧
      books (run (some fallback) turns).state = books (run none turns).state) ∧
    (∀ f, (∀ c ∈ calls, t ≤ c.1) →
      ∃ turns, ∀ number < calls.length, ((run f turns).result? number).isSome) ∧
    ∀ f turns number r, (run f turns).result? number = some r → ∃ due call,
      calls[number]? = some (due, call) ∧
        Served key limit f inner call due ((run f turns).writesOf number) r := by
  intro run
  refine ⟨fun turns => ?_, fun f hdue => ?_, fun f turns number r h => served_of_result? h⟩
  · obtain ⟨hchanges, hstate⟩ := Crowd.changes_run Accounts.books calls Prod.fst
      (fun c v => alike_guarding key limit (some fallback) none inner c.2) t w turns
    exact ⟨hchanges, congrArg Accounts.books hstate⟩
  · have hdues : ∀ task ∈ callers key limit f inner calls, t ≤ task.due := by
      intro task htask
      obtain ⟨c, hc, rfl⟩ := List.mem_map.1 htask
      exact hdue c hc
    obtain ⟨turns, hended⟩ := Crowd.exists_all_ended w hdues
    exact ⟨turns, fun number hnumber => hended number (by rwa [callers, List.length_map])⟩

/-- A service that fails opens the circuit with its first call, so that the second one is rejected. -/
theorem fallback_not_in_books_twice :
    let config : BreakerConfig := { BreakerConfig.default with failureThreshold := 1, minimumCalls := 1 }
    let call : Call := ⟨⟨"Api#get()", "GET", .compile "/", [], [], [], none, none, none, .single⟩, [],
      .url "http://localhost", none⟩
    let inner : Inside Unit := fun _ => .done (.error (.timeout .zero))
    let page : StandIn Unit := fun _ _ _ => .done (.ok (.empty .ok))
    let calls : List (Instant × Call) := [(0, call), (1, call)]
    let run := fun f turns =>
      (Crowd.start 0 ⟨⟨[], (), [], (), []⟩, .empty config, []⟩ (callers "K" none f inner calls)).run turns
    let turns : List Turn := [⟨0, 0⟩, ⟨1, 1⟩]
    (run (some page) turns).result? 1 = some (.ok (.empty .ok)) ∧
    (run none turns).result? 1 = some (.error (.circuitOpen "K")) ∧
    (run (some page) turns).changes books = (run none turns).changes books ∧
    (∃ turns, ∀ number < 2, ((run (some page) turns).result? number).isSome) ∧
    Served "K" none (some page) inner call 1 ((run (some page) turns).writesOf 1) (.ok (.empty .ok)) := by
  intro config call inner page calls run turns
  obtain ⟨hsame, hended, hserved⟩ := fallback_not_in_books "K" none inner page calls 0
    ⟨⟨[], (), [], (), []⟩, .empty config, []⟩
  refine ⟨by rfl, by rfl, (hsame turns).1, hended (some page) fun c _ => Nat.zero_le c.1, ?_⟩
  obtain ⟨due, called, hcall, h⟩ := hserved (some page) turns 1 (.ok (.empty .ok)) (by rfl)
  cases hcall
  exact h

end Pipeline

end ResilientClient
