/-
Failovers with a shared resolver. Any number of invocations, of any clients, look instances up with one resolver that
takes turns, and their lookups fall between each other in any order of turns. An invocation that gives its instance up
looks another one up at once, and its requests go to that one; but which one it is depends on the lookups of all the
others since its own last one. So it is another instance exactly if the number of these lookups is not one less than
a multiple of the number of instances (`failover_instance`).
-/
import ResilientClient.Proofs.Client.Courses
import ResilientClient.Proofs.Client.Invocation
import ResilientClient.Proofs.Fiber.Chain
import ResilientClient.Proofs.Pipeline.Seats
import ResilientClient.Proofs.Resolver.Rotation

open ResilientClient.Fiber ResilientClient.Pipeline

namespace ResilientClient

variable {ε α β : Type}

/-! ## Entries -/

/-- What writes of tasks note, in order, each with the number of the task. -/
def entriesIn (ws : List (Nat × Write (World ε))) : List (Nat × Occurrence) :=
  ws.flatMap fun entry => (gained entry.2.before.past entry.2.after.past).map (entry.1, ·)

/-- What the tasks of a crowd have noted. -/
def Crowd.entries (c : Crowd (World ε) α) : List (Nat × Occurrence) := entriesIn c.writes

/-- The services of which instances are looked up, in order. -/
def lookedUp (entries : List (Nat × Occurrence)) : List String :=
  entries.filterMap fun
    | (_, .resolved service _) => some service
    | _ => none

/-- The number of lookups of a service. -/
def lookups (service : String) (entries : List (Nat × Occurrence)) : Nat := (lookedUp entries).count service

/-- The last lookup of a task has found an instance: what comes before it, and after it. -/
def LastFound (number : Nat) (service : String) (server : Server) (early since entries : List (Nat × Occurrence)) :
    Prop :=
  entries = early ++ (number, .resolved service (.ok server)) :: since ∧
    ∀ name answer, (number, .resolved name answer) ∉ since

section Entries

variable {ws vs : List (Nat × Write (World ε))} {number other : Nat} {o : Occurrence} {service name : String}
  {server : Server} {early since entries before after more : List (Nat × Occurrence)}

@[simp] theorem entriesIn_nil : entriesIn ([] : List (Nat × Write (World ε))) = [] := rfl

@[simp] theorem entriesIn_append : entriesIn (ws ++ vs) = entriesIn ws ++ entriesIn vs := List.flatMap_append

@[simp] theorem entriesIn_cons (number : Nat) (w : Write (World ε)) :
    entriesIn ((number, w) :: ws) = (gained w.before.past w.after.past).map (number, ·) ++ entriesIn ws := rfl

@[simp] theorem lookedUp_append : lookedUp (entries ++ more) = lookedUp entries ++ lookedUp more :=
  List.filterMap_append

@[simp] theorem lookups_append :
    lookups service (entries ++ more) = lookups service entries + lookups service more := by
  simp [lookups]

@[simp] theorem lookups_resolved (number : Nat) (service : String) (answer : Except Error Server)
    (entries : List (Nat × Occurrence)) :
    lookups service ((number, .resolved service answer) :: entries) = lookups service entries + 1 := by
  simp [lookups, lookedUp]

@[simp] theorem lookups_logged (number : Nat) (service : String) (line : TraceLine)
    (entries : List (Nat × Occurrence)) :
    lookups service ((number, .logged line) :: entries) = lookups service entries := rfl

@[simp] theorem lookups_nil (service : String) : lookups service [] = 0 := rfl

/-- Every entry is noted in one of the writes. -/
theorem exists_write_of_entry (h : entriesIn ws = before ++ (number, o) :: after) : ∃ us w vs os os',
    ws = us ++ (number, w) :: vs ∧ gained w.before.past w.after.past = os ++ o :: os' ∧
      before = entriesIn us ++ os.map (number, ·) ∧ after = os'.map (number, ·) ++ entriesIn vs := by
  induction ws generalizing before with
  | nil => simp at h
  | cons entry ws ih =>
    obtain ⟨n, w⟩ := entry
    rw [entriesIn_cons] at h
    -- the entry is noted after this write, or by it
    rcases List.append_eq_append_iff.1 h with ⟨rest, rfl, hlater⟩ | ⟨rest, hnow, hlater⟩
    · obtain ⟨us, v, vs, os, os', rfl, hgained, rfl, hafter⟩ := ih hlater
      exact ⟨(n, w) :: us, v, vs, os, os', rfl, hgained, by simp, hafter⟩
    · cases rest with
      | nil =>
        obtain ⟨us, v, vs, os, os', hws, hgained, hnone, hafter⟩ := @ih [] hlater.symm
        obtain ⟨hus, hos⟩ := List.append_eq_nil_iff.1 hnone.symm
        refine ⟨(n, w) :: us, v, vs, os, os', by rw [hws]; rfl, hgained, ?_, hafter⟩
        rw [List.append_nil] at hnow
        rw [entriesIn_cons, hus, hos, hnow, List.append_nil, List.append_nil]
      | cons entry rest =>
        obtain ⟨os, os₁, hos, rfl, hrest⟩ := List.map_eq_append_iff.1 hnow
        obtain ⟨o', os', rfl, hentry, rfl⟩ := List.map_eq_cons_iff.1 hrest
        obtain ⟨hentry', rfl⟩ := List.cons.inj hlater
        cases hentry.trans hentry'.symm
        exact ⟨[], w, ws, os, os', rfl, hos, rfl, rfl⟩

/-- Later entries that are no lookups of the task. -/
theorem LastFound.append (h : LastFound number service server early since entries)
    (hmore : ∀ name answer, (number, .resolved name answer) ∉ more) :
    LastFound number service server early (since ++ more) (entries ++ more) := by
  obtain ⟨rfl, hsince⟩ := h
  refine ⟨by simp, fun name answer hmem => ?_⟩
  rcases List.mem_append.1 hmem with hmem | hmem
  · exact hsince name answer hmem
  · exact hmore name answer hmem

theorem lastFound_concat (number : Nat) (service : String) (server : Server) (entries : List (Nat × Occurrence)) :
    LastFound number service server entries [] (entries ++ [(number, .resolved service (.ok server))]) :=
  ⟨rfl, fun _ _ => List.not_mem_nil⟩

theorem eq_of_singleton {o o' : Occurrence} {os os' : List Occurrence} (h : [o] = os ++ o' :: os') :
    os = [] ∧ o = o' ∧ os' = [] := by
  cases os with
  | nil => exact ⟨rfl, (List.cons.inj h).1, (List.cons.inj h).2.symm⟩
  | cons => simp at h

theorem lookedUp_eq_nil {os : List Occurrence} (hos : ∀ name answer, .resolved name answer ∉ os) :
    lookedUp (os.map (number, ·)) = [] := by
  refine List.filterMap_eq_nil_iff.2 fun entry hmem => ?_
  obtain ⟨o, ho, rfl⟩ := List.mem_map.1 hmem
  cases o with
  | resolved name answer => exact absurd ho (hos name answer)
  | _ => rfl

end Entries

/-! ## Rows -/

namespace Desk

/-- The writes of tasks that sit down at a desk one after the other. -/
abbrev Row (desk : Desk ε) (kind : List Interceptor → Prop) : World ε → List (Nat × Write (World ε)) →
    (Nat → Phase) → World ε → Prop :=
  Chain (desk.rule kind).timed fun _ => .seated none

section Rows

variable {desk : Desk ε} {kind : List Interceptor → Prop} {s s' : World ε} {ws : List (Nat × Write (World ε))}
  {now : Nat → Phase} {os : List Occurrence} {seat : Option (String × Server)} {number : Nat} {service : String}
  {server : Server} {answer : Except Error Server} {before after : List (Nat × Occurrence)}

theorem Adds.gained (h : desk.Adds os s s') : gained s.past s'.past = os := by
  rw [h.past, gained_append, List.reverse_reverse]

/-- An attempt looks nothing up. -/
theorem Attends.adds (h : desk.Attends kind seat s s') :
    ∃ os, desk.Adds os s s' ∧ ∀ name answer, .resolved name answer ∉ os := by
  cases h with
  | quiet hquiet =>
    obtain ⟨os, hos, hadds⟩ := hquiet
    exact ⟨os, hadds, fun name answer hmem => hos _ hmem⟩
  | sends _ _ _ hadds => exact ⟨_, hadds, by simp⟩

/-- How the resolver of a world stands when it has been `turned` by all lookups that have been noted: only one that
has not been noted yet is ahead of them. -/
def Stands (turned r : RoundRobin) : Phase → Prop
  | .found service answer => turned.resolve service = (answer, r)
  | _ => r = turned

theorem stands_of_row (h : desk.Row kind s ws now s') : ∀ number,
    (∀ other, other ≠ number → (desk.rule kind).waits (now other)) →
      Stands ((desk.rotation s).after (lookedUp (entriesIn ws))) (desk.rotation s') (now number) := by
  induction h with
  | nil => exact fun _ _ => rfl
  | @snoc ws now s₁ s₂ number t m hchain hothers hstep ih =>
    have hsits : desk.Sits kind (now number) s₁ s₂ m := hstep
    have hbefore := ih number hothers
    have hafter : Stands ((desk.rotation s).after (lookedUp (entriesIn (ws ++ [(number, ⟨t, s₁, s₂⟩)]))))
        (desk.rotation s₂) m := by
      -- only a lookup turns the resolver, and it is the next entry that counts it
      generalize now number = phase at hsits hbefore
      simp only [entriesIn_append, entriesIn_cons, entriesIn_nil, List.append_nil, lookedUp_append]
      cases hsits with
      | attends hattends =>
        obtain ⟨os, hadds, hos⟩ := hattends.adds
        rw [hadds.gained, lookedUp_eq_nil hos, List.append_nil]
        exact hadds.rotation.trans hbefore
      | leaves hadds =>
        rw [hadds.gained, lookedUp_eq_nil (by simp), List.append_nil]
        exact hadds.rotation.trans hbefore
      | looks hlooks hrotation hpast =>
        have hturned : desk.rotation s₁ = (desk.rotation s).after (lookedUp (entriesIn ws)) := by
          cases phase with
          | seated | moving => exact hbefore
          | found => exact hlooks.elim
        have hnone : lookedUp ([] : List (Nat × Occurrence)) = [] := rfl
        rw [hpast, gained_self, List.map_nil, hnone, List.append_nil, ← hturned]
        exact Prod.ext rfl hrotation.symm
      | finds hadds =>
        rename_i service answer
        rw [hadds.gained]
        have hlast := (desk.rotation s).after_concat (lookedUp (entriesIn ws)) service
        exact hadds.rotation.trans ((congrArg Prod.snd hbefore).symm.trans hlast.symm)
    intro i hi
    by_cases hn : i = number
    · subst hn
      rwa [Function.update_self]
    · -- the task that has just written waits, so the resolver stands as it should
      obtain ⟨seat, hm⟩ := hi number (Ne.symm hn)
      rw [Function.update_self] at hm
      obtain ⟨seat', hseat'⟩ := hothers i hn
      rw [Function.update_of_ne hn, hseat']
      rw [hm] at hafter
      exact hafter

/-- The instance that a task sits with is the one that it has found last. -/
theorem lastFound_of_row (h : desk.Row kind s ws now s') : ∀ number service server,
    now number = .seated (some (service, server)) →
      ∃ early since, LastFound number service server early since (entriesIn ws) := by
  induction h with
  | nil => exact fun _ _ _ hnow => nomatch hnow
  | @snoc ws now s₁ s₂ number t m hchain hothers hstep ih =>
    have hsits : desk.Sits kind (now number) s₁ s₂ m := hstep
    intro i service server hnow
    simp only [entriesIn_append, entriesIn_cons, entriesIn_nil, List.append_nil]
    by_cases hn : i = number
    · subst hn
      rw [Function.update_self] at hnow
      generalize hphase : now i = phase at hsits
      cases hsits with
      | attends hattends =>
        obtain ⟨os, hadds, hos⟩ := hattends.adds
        obtain ⟨early, since, hfound⟩ := ih i service server (hphase.trans hnow)
        refine ⟨early, _, hfound.append fun name answer hmem => ?_⟩
        rw [hadds.gained] at hmem
        obtain ⟨o, ho, hentry⟩ := List.mem_map.1 hmem
        cases hentry
        exact hos name answer ho
      | leaves | looks => cases hnow
      | finds hadds =>
        rename_i service' answer
        rw [hadds.gained]
        cases answer with
        | error e => cases hnow
        | ok found =>
          cases hnow
          exact ⟨_, [], lastFound_concat i service server _⟩
    · rw [Function.update_of_ne hn] at hnow
      obtain ⟨early, since, hfound⟩ := ih i service server hnow
      -- the entries of another task are no lookups of this one
      refine ⟨early, _, hfound.append fun name answer hmem => ?_⟩
      obtain ⟨o, -, hentry⟩ := List.mem_map.1 hmem
      exact hn (congrArg Prod.fst hentry).symm

/-! ## What is noted in a row -/

/-- What a task notes that is not quiet, with its phases before and after: a request from its seat, the failover with
which it gives its instance up, or the lookup that it has found the answer of. -/
inductive Marks (kind : List Interceptor → Prop) : Phase → Occurrence → Phase → Prop
  | sends {interceptors : List Interceptor} {call : Call} {request : Request} {seat : Option (String × Server)} :
      kind interceptors → prepare interceptors call = .ok request → SentFrom call seat →
      Marks kind (.seated seat) (.sent request) (.seated seat)
  | leaves {call : Call} {service : String} {server : Server} {e : Error} :
      Marks kind (.seated (some (service, server))) (.logged (nextInstanceLine call service server e)) (.moving service)
  | finds {service : String} {answer : Except Error Server} : Marks kind (.found service answer)
      (.resolved service answer) (.seated (answer.toOption.map (service, ·)))

/-- What is not quiet is noted alone. -/
theorem Sits.marks {phase m : Phase} {o : Occurrence} {os' : List Occurrence} (h : desk.Sits kind phase s s' m)
    (hgained : gained s.past s'.past = os ++ o :: os') : o.Quiet ∨ os = [] ∧ os' = [] ∧ Marks kind phase o m := by
  cases h with
  | attends hattends =>
    cases hattends with
    | quiet hquiet =>
      obtain ⟨all, hos, hadds⟩ := hquiet
      rw [hadds.gained] at hgained
      exact .inl (hos o (hgained ▸ List.mem_append_right _ List.mem_cons_self))
    | sends hkind hrequest hsent hadds =>
      rw [hadds.gained] at hgained
      obtain ⟨rfl, rfl, rfl⟩ := eq_of_singleton hgained
      exact .inr ⟨rfl, rfl, .sends hkind hrequest hsent⟩
  | leaves hadds =>
    rw [hadds.gained] at hgained
    obtain ⟨rfl, rfl, rfl⟩ := eq_of_singleton hgained
    exact .inr ⟨rfl, rfl, .leaves⟩
  | looks _ _ hpast =>
    rw [hpast, gained_self] at hgained
    simp at hgained
  | finds hadds =>
    rw [hadds.gained] at hgained
    obtain ⟨rfl, rfl, rfl⟩ := eq_of_singleton hgained
    exact .inr ⟨rfl, rfl, .finds⟩

/-- What is noted in a row and is not quiet is a mark, between a row before it and the writes after it. -/
theorem marks_of_row {o : Occurrence} (h : desk.Row kind s ws now s') (ho : ¬ o.Quiet)
    (hentry : entriesIn ws = before ++ (number, o) :: after) : ∃ us vs mid m s₁ s₂, before = entriesIn us ∧
      after = entriesIn vs ∧ desk.Row kind s us mid s₁ ∧ (∀ i, i ≠ number → (desk.rule kind).waits (mid i)) ∧
      Marks kind (mid number) o m ∧ Chain (desk.rule kind).timed (Function.update mid number m) s₂ vs now s' := by
  obtain ⟨us, w, vs, os, os', rfl, hgained, rfl, rfl⟩ := exists_write_of_entry hentry
  obtain ⟨mid, m, hrow, hothers, hstep, hrest⟩ := h.split
  obtain hquiet | ⟨rfl, rfl, hmarks⟩ := Sits.marks hstep hgained
  · exact absurd hquiet ho
  · exact ⟨us, vs, mid, m, w.before, w.after, by simp, by simp, hrow, hothers, hmarks, hrest⟩

/-- A task that has given its instance up notes a lookup before anything else is noted. -/
theorem next_of_moving {modes : Nat → Phase} (h : Chain (desk.rule kind).timed modes s ws now s')
    (hmoving : modes number = .moving service) (hnow : (desk.rule kind).waits (now number)) :
    ∃ answer rest, entriesIn ws = (number, .resolved service answer) :: rest := by
  have hbusy : ¬ (desk.rule kind).waits (modes number) := by
    rintro ⟨seat, hseat⟩
    cases hmoving.symm.trans hseat
  obtain ⟨w, m, vs, rfl, -, hstep, hchain⟩ := h.busy hbusy hnow
  have hsits : desk.Sits kind (modes number) w.before w.after m := hstep
  rw [hmoving] at hsits
  cases hsits with
  | looks hlooks _ hpast =>
    obtain rfl : service = _ := hlooks
    -- the lookup is one write and its entry the next one, and nobody writes in between
    have hbusy' : ¬ (desk.rule kind).waits (Function.update modes number
        (.found service ((desk.rotation w.before).resolve service).1) number) := by
      rw [Function.update_self]
      rintro ⟨seat, hseat⟩
      cases hseat
    obtain ⟨v, m, vs, rfl, -, hstep, hchain⟩ := hchain.busy hbusy' hnow
    rw [Function.update_self] at hstep
    have hsits : desk.Sits kind (.found service ((desk.rotation w.before).resolve service).1) v.before v.after m :=
      hstep
    cases hsits with
    | looks hlooks => exact hlooks.elim
    | finds hadds =>
      refine ⟨((desk.rotation w.before).resolve service).1, entriesIn vs, ?_⟩
      rw [entriesIn_cons, entriesIn_cons, hpast, gained_self, hadds.gained]
      rfl

/-- The answer of a lookup is said by the lookups before it. -/
theorem answer_of_row (h : desk.Row kind s ws now s')
    (hentry : entriesIn ws = before ++ (number, .resolved service answer) :: after) :
    (((desk.rotation s).after (lookedUp before)).resolve service).1 = answer := by
  obtain ⟨us, vs, mid, m, s₁, s₂, rfl, -, hrow, hothers, hmarks, -⟩ := marks_of_row h id hentry
  have hstands := stands_of_row hrow number hothers
  generalize mid number = phase at hmarks hstands
  cases hmarks
  exact congrArg Prod.fst hstands

/-- A request goes to the instance that its task has found last, unless the target of its call is a URL. -/
theorem sent_of_row {request : Request} (h : desk.Row kind s ws now s')
    (hentry : entriesIn ws = before ++ (number, .sent request) :: after) :
    ∃ interceptors call, kind interceptors ∧ prepare interceptors call = .ok request ∧
      ∀ name, call.target = .service name → ∃ server early since, call.server = some server ∧
        LastFound number name server early since before := by
  obtain ⟨us, vs, mid, m, s₁, s₂, rfl, -, hrow, -, hmarks, -⟩ := marks_of_row h id hentry
  have hlast := lastFound_of_row hrow number
  generalize mid number = phase at hmarks hlast
  cases hmarks with
  | @sends interceptors call _ seat hkind hrequest hsent =>
    refine ⟨interceptors, call, hkind, hrequest, fun name hname => ?_⟩
    obtain ⟨server, hserver, rfl⟩ := hsent name hname
    obtain ⟨early, since, hfound⟩ := hlast name server rfl
    exact ⟨server, early, since, hserver, hfound⟩

/-- A failover gives up the instance that its task has found last, and is followed by the next lookup of the task. -/
theorem left_of_row {line : TraceLine} (h : desk.Row kind s ws now s') (hnow : ∀ i, (desk.rule kind).waits (now i))
    (hentry : entriesIn ws = before ++ (number, .logged line) :: after) (hline : line.message = failoverMessage) :
    ∃ call name server e early since, line = nextInstanceLine call name server e ∧
      LastFound number name server early since before ∧
      ∃ answer rest, after = (number, .resolved name answer) :: rest := by
  have hloud : ¬ (Occurrence.logged line).Quiet := fun hquiet => hquiet hline
  obtain ⟨us, vs, mid, m, s₁, s₂, rfl, rfl, hrow, -, hmarks, hrest⟩ := marks_of_row h hloud hentry
  have hlast := lastFound_of_row hrow number
  generalize mid number = phase at hmarks hlast
  cases hmarks with
  | @leaves call name server e =>
    obtain ⟨early, since, hfound⟩ := hlast name server rfl
    exact ⟨call, name, server, e, early, since, rfl, hfound,
      next_of_moving hrest (Function.update_self number _ mid) (hnow number)⟩

end Rows

end Desk

/-! ## Clients at a desk -/

/-- The clients of a builder look instances up at a desk, and their other collaborators leave its resolver alone. -/
structure Builder.AtDesk (b : Builder ε) (around : Surroundings ε) (desk : Desk ε) : Prop where
  resolver : b.target.isLogical = true → b.resolver = some desk.resolver
  transport : ∀ request, Obeys desk.Spares
    (b.transport.getD (HttpTransport.transport b.config.transport around.network) request)
  statusHandler : ∀ handler, b.statusHandler = some handler → ∀ method response,
    Obeys desk.Spares (handler.decode method response)
  fallbacks : ∀ method f, b.fallbacks b.target method = some f → ∀ name args cause,
    Obeys desk.Spares (f name args cause)

namespace Builder.AtDesk

variable {b : Builder ε} {around : Surroundings ε} {desk : Desk ε} {kind : List Interceptor → Prop} {rule : HeaderRule}

theorem attending_backing (h : b.AtDesk around desk) (hkind : kind (b.interceptors ++ [rule.toInterceptor]))
    (method : String) : desk.Attending kind (b.backing (b.exchange around rule) method) := by
  have hhandler : ∀ method response,
      Obeys desk.Spares ((b.exchange around rule).statusHandler.decode method response) := by
    intro method response
    unfold exchange
    cases hhandler : b.statusHandler with
    | some handler => exact h.statusHandler handler hhandler method response
    | none => exact obeys_decodeStatus desk.spares_refl _ _ _ _
  have hattempt : desk.Attending kind (executing (b.exchange around rule)) :=
    Desk.attending_executing hkind h.transport hhandler
  unfold backing
  split
  · exact Desk.attending_guarding (h.fallbacks method) hattempt
  · exact hattempt

theorem moves_dispatch (h : b.AtDesk around desk) (hkind : kind (b.interceptors ++ [rule.toInterceptor]))
    (endpoint : Endpoint) (args : List Argument) :
    desk.Moves kind ((b.complete around (b.exchange around rule) endpoint).dispatch args) := by
  have hbacking := h.attending_backing hkind endpoint.key
  have hbalanced : desk.Moves kind (b.balanced (b.backing (b.exchange around rule) endpoint.key)
      (.start endpoint args b.target)) := by
    unfold balanced
    split
    · rename_i hlogical
      rw [h.resolver hlogical]
      exact Desk.moves_balancing hbacking _ _
    · rename_i hlogical
      cases htarget : b.target with
      | url base => exact Desk.moves_direct hbacking rfl
      | service name => exact absurd (by rw [htarget]; rfl) hlogical
  unfold Method.dispatch complete retried
  dsimp only
  cases b.policy? around with
  | some policy =>
    exact Desk.layering_moves.attemptsFrom Desk.noting_quiet hbalanced (fun _ _ => Occurrence.quiet_logged rfl)
      (fun _ _ _ => Occurrence.quiet_logged rfl) (World.quiet_told _) _ _
  | none => exact hbalanced

end Builder.AtDesk

namespace Desk

theorem quiet_of_tells {desk : Desk ε} {listeners : List Listener} {s s' : World ε}
    (h : Method.Tells listeners s s') : desk.Quiet s s' := by
  rcases h with rfl | ⟨event, rfl⟩
  · exact noting_quiet.refl _
  · exact noting_quiet.note s _ (World.quiet_told listeners event)

/-- What is done by those who share the resolver of a desk: methods are invoked of clients at the desk whose
interceptors are of a kind, and collaborators work that leave the resolver alone. -/
inductive Shares (desk : Desk ε) (kind : List Interceptor → Prop) : {α : Type} → Stage ε α → Prop
  | invocation {b : Builder ε} {around : Surroundings ε} {client : Client ε} {t₀ t₁ : Instant} {s₀ s₁ : World ε}
      {ws₀ : List (Write (World ε))} {m : Method ε} {args : List Argument} {α : Type} {x : Stage ε α}
      {failed : Error → α} :
      b.AtDesk around desk → (∀ rule : HeaderRule, kind (b.interceptors ++ [rule.toInterceptor])) →
      Ends (b.build around) t₀ s₀ ws₀ (.ok client) t₁ s₁ → m ∈ client.methods → m.Invokes args x failed →
      Shares desk kind x
  | outside {α : Type} {work : Fiber (Outside ε) α} : Obeys desk.Spares work → Shares desk kind (Stage.outside work)

theorem Shares.moves {desk : Desk ε} {kind : List Interceptor → Prop} {x : Stage ε α} (h : desk.Shares kind x) :
    desk.Moves kind x := by
  cases h with
  | invocation h hkind hbuild hm hinvokes =>
    obtain ⟨endpoints, rule, -, -, hmethods⟩ := Builder.methods_of_build hbuild
    rw [hmethods] at hm
    obtain ⟨endpoint, -, rfl⟩ := List.mem_map.1 hm
    obtain ⟨rest, ⟨rfl, htells⟩, -⟩ := hinvokes.hands
    refine moves_andThen (moves_quiet obeys_now) fun started => ?_
    exact moves_andThen (h.moves_dispatch (hkind rule) endpoint _) fun r =>
      moves_quiet ((htells started r).weaken fun _ _ => quiet_of_tells)
  | outside hwork => exact moves_quiet (noting_quiet.outside hwork)

theorem moves_of_shares {desk : Desk ε} {kind : List Interceptor → Prop} {x : Stage ε α}
    (h : Program (fun x => desk.Shares kind x) x) : desk.Moves kind x := by
  induction h with
  | part hx => exact hx.moves
  | sleep d => exact moves_quiet (obeys_sleep noting_quiet.refl d)
  | done a => exact moves_done a
  | andThen _ _ ihx ihf => exact moves_andThen ihx ihf
  | within limit _ ih => exact moves_within ih limit

/-- What tasks at a desk write is a row, whatever the order of their turns, and at the end all of them are seated. -/
theorem row_of_shares {desk : Desk ε} {kind : List Interceptor → Prop} {tasks : List (Task (World ε) β)}
    (h : ∀ task ∈ tasks, Program (fun x => desk.Shares kind x) task.rest) (t : Instant) (s : World ε)
    (turns : List Turn) :
    ∃ now, desk.Row kind s ((Crowd.start t s tasks).run turns).writes now ((Crowd.start t s tasks).run turns).state ∧
      ∀ number, (desk.rule kind).waits (now number) := by
  obtain ⟨now, hchained⟩ := Crowd.chain_run (desk.rule kind).timed (fun phase _ => (desk.rule kind).waits phase)
    (fun _ => .seated none) (fun _ _ hphase => hphase) (fun _ => ⟨none, rfl⟩)
    (fun number task htask t s => (moves_of_shares (h task (List.mem_of_getElem? htask)) none s).timed t) t s turns
  exact ⟨now, hchained.chain, hchained.waits⟩

end Desk

/-! ## Failovers -/

/-- Which instance a failover moves to. Programs of any number of clients share a resolver with instances of a service,
each of them once; no list is set meanwhile. In every order of turns each lookup of the service takes the instance at
its own position, counted on from the cursor of the resolver, whichever task it is for; each request of a task goes
to the instance that the task has found last; and each failover of a task gives up the instance that it has found
last and is followed at once by its next lookup. So the failover moves to another instance exactly if the lookups of
the others since then do not bring the position back, that is, as long as the cursor does not come round, exactly if
the number of instances does not divide one more than the number of these lookups. -/
theorem failover_instance (desk : Desk ε) (kind : List Interceptor → Prop) {tasks : List (Task (World ε) β)}
    (htasks : ∀ task ∈ tasks, Program (fun x => desk.Shares kind x) task.rest) (t : Instant) (s : World ε)
    (turns : List Turn)
    {service : String} (hsome : ((desk.rotation s).poolOf service).servers ≠ [])
    (hdistinct : ((desk.rotation s).poolOf service).servers.Nodup) :
    let pool := (desk.rotation s).poolOf service
    let entries := ((Crowd.start t s tasks).run turns).entries
    (∀ before number answer after, entries = before ++ (number, .resolved service answer) :: after →
      ∃ server, answer = .ok server ∧ pool.servers[RoundRobin.position pool (lookups service before)]? = some server) ∧
    (∀ before number request after, entries = before ++ (number, .sent request) :: after →
      ∃ interceptors call, kind interceptors ∧ prepare interceptors call = .ok request ∧
        ∀ name, call.target = .service name → ∃ server early since, call.server = some server ∧
          LastFound number name server early since before) ∧
    ∀ before number line after, entries = before ++ (number, .logged line) :: after → line.message = failoverMessage →
      ∃ call name server e early since, line = nextInstanceLine call name server e ∧
        LastFound number name server early since before ∧
        ∃ answer rest, after = (number, .resolved name answer) :: rest ∧ (name = service →
          ∃ next, answer = .ok next ∧
            (next = server ↔ RoundRobin.position pool (lookups service early + (lookups service since + 1)) =
              RoundRobin.position pool (lookups service early)) ∧
            (pool.cursor.toNat + lookups service entries < twoTo 64 →
              (next = server ↔ pool.servers.length ∣ lookups service since + 1))) := by
  intro pool entries
  obtain ⟨now, hrow, hnow⟩ := Desk.row_of_shares htasks t s turns
  have hanswers : ∀ before number answer after, entries = before ++ (number, .resolved service answer) :: after →
      ∃ server, answer = .ok server ∧
        pool.servers[RoundRobin.position pool (lookups service before)]? = some server := by
    intro before number answer after hentry
    obtain ⟨server, hresolve, hserver⟩ := RoundRobin.resolve_after hsome (lookedUp before)
    exact ⟨server, (Desk.answer_of_row hrow hentry).symm.trans hresolve, hserver⟩
  refine ⟨hanswers, fun before number request after hentry => Desk.sent_of_row hrow hentry, ?_⟩
  intro before number line after hentry hline
  obtain ⟨call, name, server, e, early, since, hcall, hfound, answer, rest, rfl⟩ :=
    Desk.left_of_row hrow hnow hentry hline
  refine ⟨call, name, server, e, early, since, hcall, hfound, answer, rest, rfl, ?_⟩
  rintro rfl
  obtain ⟨rfl, -⟩ := hfound
  -- between the two lookups of the task there is the first one itself, and those of the others
  have hlater : lookups name (early ++ (number, .resolved name (.ok server)) :: since ++ [(number, .logged line)]) =
      lookups name early + (lookups name since + 1) := by simp
  obtain ⟨_, hserver, hgiven⟩ := hanswers early number (.ok server) _ (by rw [hentry, List.append_assoc]; rfl)
  cases hserver
  obtain ⟨next, rfl, hnext⟩ := hanswers _ number answer rest (by rw [hentry, List.append_cons])
  rw [hlater] at hnext
  -- no instance is in the list twice, so it is the same one exactly if its position is
  have hsame : next = server ↔ RoundRobin.position pool (lookups name early + (lookups name since + 1)) =
      RoundRobin.position pool (lookups name early) := by
    constructor
    · rintro rfl
      exact (List.getElem?_inj (List.getElem?_eq_some_iff.1 hnext).1 hdistinct).1 (hnext.trans hgiven.symm)
    · intro hposition
      rw [hposition] at hnext
      exact Option.some.inj (hnext.symm.trans hgiven)
  refine ⟨next, rfl, hsame, fun hfew => hsame.trans ?_⟩
  have hcount : lookups name early + (lookups name since + 1) ≤ lookups name entries := by
    rw [hentry, ← hlater]
    simp
  exact eq_comm.trans (RoundRobin.position_eq_iff (by omega))

/-! ## Two tasks and two instances -/

namespace Failover

def instanceA : Server := ⟨"a", 80, false, []⟩

def instanceB : Server := ⟨"b", 80, false, []⟩

def endpoint : Endpoint := ⟨"Api#get()", "GET", .compile "/", [], [], [], none, none, none, .single⟩

/-- The resolver is all that the collaborators keep. -/
def resolverDesk : Desk RoundRobin := ⟨id, fun r _ => r, fun _ _ => rfl⟩

/-- A client that may fail over once. No instance takes a connection, which it says after a millisecond. -/
def refused : Builder RoundRobin where
  target := .service "orders"
  config := { ClientConfig.minimal with balancer := some ⟨0, 1⟩ }
  methods := [endpoint]
  transport := some fun _ => (Fiber.sleep (.ofMillis 1)).andThen fun _ => .done (.error (.transport .connect "refused"))
  resolver := some resolverDesk.resolver

def offline : Surroundings RoundRobin :=
  ⟨0, fun _ => .ofNat 0, fun _ => .done (.error (.transport .connect "no network"))⟩

/-- A world in which nothing has happened but that the instances have been set. -/
def fresh : World RoundRobin :=
  ⟨⟨[], RoundRobin.empty.setServers "orders" [instanceA, instanceB]⟩, .empty .default, []⟩

/-- Two invocations at once: both look an instance up, and when a millisecond has passed the first one fails over. -/
def twice (m : Method RoundRobin) : Crowd (World RoundRobin) (Except Error (Option Bytes)) :=
  (Crowd.start 0 fresh [⟨0, m.invokeSingle []⟩, ⟨0, m.invokeSingle []⟩]).run [⟨0, 0⟩, ⟨0, 1⟩, ⟨1000000, 0⟩]

/-- What an entry says of an instance: that it is found, or that it is given up. -/
def instance? : Occurrence → Option (Server ⊕ String)
  | .resolved _ (.ok server) => some (.inl server)
  | .logged line => (line.fields.lookup "failed").map .inr
  | _ => none

/-- The first invocation fails over from the first instance to the first instance, and sends its next request there:
the lookup of the other invocation has come between. -/
theorem failover_keeps_instance : (refused.first offline fresh).map (fun p =>
    ((twice p.1).entries.filterMap fun entry => (instance? entry.2).map (entry.1, ·),
      (twice p.1).state.sent.map fun request => request.uri.text)) =
    some ([(0, .inl instanceA), (1, .inl instanceB), (0, .inr "a:80"), (0, .inl instanceA)],
      ["http://a:80/", "http://b:80/", "http://a:80/"]) := by
  decide +kernel

theorem atDesk_refused : refused.AtDesk offline resolverDesk where
  resolver _ := rfl
  transport _ := obeys_andThen (obeys_sleep resolverDesk.spares_refl _) fun _ => obeys_done _
  statusHandler _ h := nomatch h
  fallbacks _ _ h := nomatch h

/-- What an entry says of the failover of a call of the service. -/
def isFailover : Occurrence → Bool
  | .logged line => line.message == failoverMessage && line.fields.lookup "service" == some "orders"
  | _ => false

/-- The failover of the first invocation moves to another instance exactly if two does not divide one more than the
number of lookups that have come between. -/
theorem failover_instance_refused : ∃ m,
    (∀ task ∈ ([⟨0, m.invokeSingle []⟩, ⟨0, m.invokeSingle []⟩] : List (Task _ _)),
      Program (fun x => resolverDesk.Shares (fun _ => True) x) task.rest) ∧
    ((resolverDesk.rotation fresh).poolOf "orders").servers ≠ [] ∧
    ((resolverDesk.rotation fresh).poolOf "orders").servers.Nodup ∧
    ∃ before call server e early since next rest,
      (twice m).entries = before ++ (0, .logged (nextInstanceLine call "orders" server e)) ::
        (0, .resolved "orders" (.ok next)) :: rest ∧
      LastFound 0 "orders" server early since before ∧ (next = server ↔ 2 ∣ lookups "orders" since + 1) := by
  -- one run says that there is a failover, and that the cursor does not come round
  have hrun : (refused.first offline fresh).map (fun p =>
      ((twice p.1).entries.any fun entry => entry.1 == 0 && isFailover entry.2, lookups "orders" (twice p.1).entries)) =
      some (true, 3) := by decide +kernel
  have hsome : ((resolverDesk.rotation fresh).poolOf "orders").servers ≠ [] := by decide
  have hdistinct : ((resolverDesk.rotation fresh).poolOf "orders").servers.Nodup := by decide
  obtain ⟨⟨m, t, s⟩, hfirst, hmade⟩ := Option.map_eq_some_iff.1 hrun
  obtain ⟨hnoted, hlookups⟩ := Prod.mk.inj hmade
  obtain ⟨client, ws, hbuild, hm⟩ := Builder.ends_of_first hfirst
  have hshares : ∀ task ∈ ([⟨0, m.invokeSingle []⟩, ⟨0, m.invokeSingle []⟩] : List (Task _ _)),
      Program (fun x => resolverDesk.Shares (fun _ => True) x) task.rest := by
    have hone : Program (fun x => resolverDesk.Shares (fun _ => True) x) (m.invokeSingle []) :=
      .part (.invocation atDesk_refused (fun _ => trivial) hbuild hm .single)
    simpa using hone
  obtain ⟨⟨number, o⟩, hmem, hentry⟩ := List.any_eq_true.1 hnoted
  obtain ⟨before, after, hsplit⟩ := List.append_of_mem hmem
  cases o with
  | logged line =>
    simp only [isFailover, Bool.and_eq_true, beq_iff_eq] at hentry
    obtain ⟨rfl, hline, hservice⟩ := hentry
    obtain ⟨-, -, hfailovers⟩ :=
      failover_instance resolverDesk (fun _ => True) hshares 0 fresh [⟨0, 0⟩, ⟨0, 1⟩, ⟨1000000, 0⟩] hsome hdistinct
    obtain ⟨call, name, server, e, early, since, rfl, hfound, answer, rest, rfl, hnext⟩ :=
      hfailovers before 0 line after hsplit hline
    obtain rfl : name = "orders" := Option.some.inj hservice
    obtain ⟨next, rfl, -, hiff⟩ := hnext rfl
    have hfew := hiff (Nat.lt_of_le_of_lt (Nat.le_of_eq (congrArg _ hlookups)) (by decide))
    exact ⟨m, hshares, hsome, hdistinct, before, call, server, e, early, since, next, rest, hsplit, hfound, hfew⟩
  | _ => simp [isFailover] at hentry

end Failover

end ResilientClient
