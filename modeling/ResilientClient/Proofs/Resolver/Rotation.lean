/-
Rotations. The operations of any number of callers reach a resolver one after the other, each as a whole. What a
resolution comes to is said by the list that was set last for its service and by the number of resolutions of that
service that have found an instance before (`poolOf_run`). So the picks from one list go round its positions
(`picks_of_stretch`), and none of them is picked more than once more than another (`count_positions`).
-/
import ResilientClient.Resolver.RoundRobin
import ResilientClient.Power
import Mathlib.Data.List.Induction

namespace ResilientClient.RoundRobin

/-! ## Operations -/

/-- Something that is asked of a resolver. -/
inductive Operation where
  | set (service : String) (servers : List Server)
  | resolve (service : String)
deriving DecidableEq, Repr

namespace Operation

def service : Operation → String
  | set service _ => service
  | resolve service => service

/-- The list that is set for a service. -/
def listFor? (service : String) : Operation → Option (List Server)
  | set other servers => if other = service then some servers else none
  | resolve _ => none

/-- The resolver after an operation. -/
def apply (r : RoundRobin) : Operation → RoundRobin
  | set service servers => r.setServers service servers
  | resolve service => (r.resolve service).2

end Operation

/-- The resolver after operations in order. -/
def run (r : RoundRobin) (ops : List Operation) : RoundRobin := ops.foldl Operation.apply r

/-- What the resolutions of a service come to, in order. -/
def answers (service : String) (r : RoundRobin) : List Operation → List (Except Error Server)
  | [] => []
  | op :: ops =>
    let later := answers service (op.apply r) ops
    if op = .resolve service then (r.resolve service).1 :: later else later

/-- The list that is set last for a service, if any is. -/
def lastSet? (service : String) (ops : List Operation) : Option (List Server) :=
  ops.reverse.findSome? (Operation.listFor? service)

/-- The number of resolutions of a service that find an instance. -/
def served (service : String) (ops : List Operation) : Nat := (answers service empty ops).countP Except.isOk

/-- The positions of a list of `length` entries from `start` on, `turns` of them, round and round. -/
def positions (length start turns : Nat) : List Nat := (List.range' start turns).map (· % length)

section Operations

variable {r : RoundRobin} {service other : String} {ops more : List Operation} {op : Operation}

@[simp] theorem run_append (r : RoundRobin) (ops more : List Operation) :
    r.run (ops ++ more) = (r.run ops).run more := List.foldl_append

theorem answers_append (service : String) (r : RoundRobin) (ops more : List Operation) :
    answers service r (ops ++ more) = answers service r ops ++ answers service (r.run ops) more := by
  induction ops generalizing r with
  | nil => rfl
  | cons op ops ih =>
    simp only [List.cons_append, answers, ih]
    split <;> rfl

theorem length_answers (service : String) (r : RoundRobin) (ops : List Operation) :
    (answers service r ops).length = ops.count (.resolve service) := by
  induction ops generalizing r with
  | nil => rfl
  | cons op ops ih =>
    unfold answers
    by_cases h : op = .resolve service
    · rw [if_pos h, h, List.count_cons_self, List.length_cons, ih]
    · rw [if_neg h, List.count_cons_of_ne h, ih]

theorem lastSet?_append (service : String) (ops : List Operation) (op : Operation) :
    lastSet? service (ops ++ [op]) = (op.listFor? service).or (lastSet? service ops) := by
  unfold lastSet?
  rw [List.reverse_append, List.reverse_singleton, List.singleton_append, List.findSome?_cons]
  cases op.listFor? service <;> rfl

theorem served_append (service : String) (ops : List Operation) (op : Operation) :
    served service (ops ++ [op]) =
      served service ops + (answers service (empty.run ops) [op]).countP Except.isOk := by
  unfold served
  rw [answers_append, List.countP_append]

theorem served_le (service : String) (ops : List Operation) : served service ops ≤ ops.count (.resolve service) :=
  Nat.le_trans List.countP_le_length (Nat.le_of_eq (length_answers service empty ops))

/-! ## Pools -/

/-- The pool of a service; one that was never set is empty. -/
def poolOf (r : RoundRobin) (service : String) : ServerPool := (r.pool? service).getD ⟨[], 0⟩

/-- The pool after it has been asked for an instance. -/
def turned (pool : ServerPool) : ServerPool :=
  if pool.servers = [] then pool else { pool with cursor := pool.cursor + 1 }

/-- What an operation does to the pool of its service. -/
def Operation.onPool : Operation → ServerPool → ServerPool
  | set _ servers, pool => { pool with servers := servers }
  | resolve _, pool => turned pool

theorem pool?_put (r : RoundRobin) (service other : String) (pool : ServerPool) :
    (⟨put service pool r.pools⟩ : RoundRobin).pool? other =
      if other = service then some pool else r.pool? other := by
  obtain ⟨pools⟩ := r
  unfold pool?
  induction pools with
  | nil =>
    by_cases h : other = service
    · simp [put, h]
    · simp [put, h, Ne.symm h]
  | cons entry pools ih =>
    unfold put
    by_cases hentry : entry.1 = service
    · by_cases h : other = service
      · simp [hentry, h]
      · simp [hentry, h, Ne.symm h]
    · rw [if_neg hentry]
      by_cases h : entry.1 = other
      · have hother : other ≠ service := fun hservice => hentry (h.trans hservice)
        simp [h, hother]
      · simpa [h] using ih

theorem poolOf_put (r : RoundRobin) (service other : String) (pool : ServerPool) :
    (⟨put service pool r.pools⟩ : RoundRobin).poolOf other =
      if other = service then pool else r.poolOf other := by
  unfold poolOf
  rw [pool?_put]
  split <;> rfl

/-- Without an instance a resolution fails and leaves the resolver as it is; otherwise it takes the one at the
cursor, and the cursor moves on. -/
theorem resolve_cases (r : RoundRobin) (service : String) :
    ((r.poolOf service).servers = [] ∧ r.resolve service = (.error (.noInstances service), r)) ∨
    ∃ server, (r.poolOf service).servers ≠ [] ∧
      (r.poolOf service).servers[(r.poolOf service).cursor.toNat % (r.poolOf service).servers.length]? = some server ∧
      r.resolve service = (.ok server, ⟨put service (turned (r.poolOf service)) r.pools⟩) := by
  unfold resolve poolOf
  cases hpool : r.pool? service with
  | none => exact .inl ⟨rfl, rfl⟩
  | some pool =>
    dsimp only [Option.getD_some]
    cases hserver : pool.servers[pool.cursor.toNat % pool.servers.length]? with
    | some server =>
      have hsome : pool.servers ≠ [] := fun h => by simp [h] at hserver
      exact .inr ⟨server, hsome, rfl, by rw [turned, if_neg hsome]⟩
    | none =>
      refine .inl ⟨?_, rfl⟩
      by_contra hsome
      have hpos : 0 < pool.servers.length := List.length_pos_iff.2 hsome
      exact absurd (Nat.mod_lt _ hpos) (Nat.not_lt.2 (List.getElem?_eq_none_iff.1 hserver))

theorem poolOf_setServers (r : RoundRobin) (service other : String) (servers : List Server) :
    (r.setServers service servers).poolOf other =
      if other = service then { r.poolOf service with servers := servers } else r.poolOf other := by
  refine (poolOf_put r service other _).trans ?_
  unfold poolOf
  cases r.pool? service <;> rfl

theorem poolOf_resolve (r : RoundRobin) (service other : String) : (r.resolve service).2.poolOf other =
    if other = service then turned (r.poolOf service) else r.poolOf other := by
  rcases r.resolve_cases service with ⟨hnone, hresolve⟩ | ⟨server, -, -, hresolve⟩
  · rw [hresolve, turned, if_pos hnone]
    split
    · next h => rw [h]
    · rfl
  · rw [hresolve, poolOf_put]

/-- What an operation does to the pool of its service is said by that pool alone. -/
theorem poolOf_apply_self (r : RoundRobin) (op : Operation) :
    (op.apply r).poolOf op.service = op.onPool (r.poolOf op.service) := by
  cases op with
  | set service servers => exact (poolOf_setServers r service service servers).trans (if_pos rfl)
  | resolve service => exact (poolOf_resolve r service service).trans (if_pos rfl)

/-- An operation leaves the pools of other services as they are. -/
theorem poolOf_apply_of_ne (r : RoundRobin) (h : service ≠ op.service) :
    (op.apply r).poolOf service = r.poolOf service := by
  cases op with
  | set other servers => exact (poolOf_setServers r other service servers).trans (if_neg h)
  | resolve other => exact (poolOf_resolve r other service).trans (if_neg h)

/-- All that a service is resolved by is its pool. -/
theorem resolve_congr {r' : RoundRobin} (h : r.poolOf service = r'.poolOf service) :
    (r.resolve service).1 = (r'.resolve service).1 := by
  rcases r.resolve_cases service with ⟨hnone, hresolve⟩ | ⟨server, hsome, hserver, hresolve⟩
  · rcases r'.resolve_cases service with ⟨-, hresolve'⟩ | ⟨-, hsome', -⟩
    · rw [hresolve, hresolve']
    · exact absurd (h ▸ hnone) hsome'
  · rcases r'.resolve_cases service with ⟨hnone', -⟩ | ⟨server', -, hserver', hresolve'⟩
    · exact absurd (h ▸ hnone') hsome
    · rw [h, hserver'] at hserver
      rw [hresolve, hresolve', Option.some.inj hserver]

/-- Operations on other services change no answer. -/
theorem answers_filter (service : String) (ops : List Operation) : ∀ {r r' : RoundRobin},
    r.poolOf service = r'.poolOf service →
      answers service r ops = answers service r' (ops.filter fun op => op.service == service) := by
  induction ops with
  | nil => exact fun _ => rfl
  | cons op ops ih =>
    intro r r' h
    by_cases hop : op.service = service
    · have hpools : (op.apply r).poolOf service = (op.apply r').poolOf service := by
        subst hop
        rw [poolOf_apply_self, poolOf_apply_self, h]
      rw [List.filter_cons_of_pos (by simpa using hop)]
      simp only [answers, ih hpools, resolve_congr h]
    · have hother : op ≠ .resolve service := by rintro rfl; exact hop rfl
      have hpools : (op.apply r).poolOf service = r'.poolOf service :=
        (poolOf_apply_of_ne r (Ne.symm hop)).trans h
      rw [List.filter_cons_of_neg (by simpa using hop), answers, if_neg hother]
      exact ih hpools

/-! ## Runs -/

theorem listFor?_of_ne (h : service ≠ op.service) : op.listFor? service = none := by
  cases op with
  | set other servers => exact if_neg (Ne.symm h)
  | resolve other => rfl

theorem answers_of_ne (r : RoundRobin) (h : service ≠ op.service) : answers service r [op] = [] :=
  if_neg (by rintro rfl; exact h rfl)

/-- After operations on a new resolver, a service has the list that was set last, and its cursor counts the
resolutions that have found an instance. -/
theorem poolOf_run (service : String) (ops : List Operation) : (empty.run ops).poolOf service =
    ⟨(lastSet? service ops).getD [], .ofNat (served service ops)⟩ := by
  induction ops using List.reverseRecOn with
  | nil => rfl
  | append_singleton ops op ih =>
    rw [run_append, lastSet?_append, served_append]
    change (op.apply (empty.run ops)).poolOf service = _
    -- an operation on another service shows neither in the pool nor in what it is counted by
    by_cases hop : service = op.service
    · subst hop
      rw [poolOf_apply_self, ih]
      cases op with
      | set service servers => simp [Operation.service, Operation.onPool, Operation.listFor?, answers]
      | resolve service =>
        have hlists : ((empty.run ops).poolOf service).servers = (lastSet? service ops).getD [] :=
          congrArg ServerPool.servers ih
        rcases (empty.run ops).resolve_cases service with ⟨hlist, hresolve⟩ | ⟨server, hlist, -, hresolve⟩
        · rw [hlists] at hlist
          simp [Operation.service, Operation.onPool, Operation.listFor?, turned, hlist, answers, hresolve,
            Except.isOk, Except.toBool]
        · rw [hlists] at hlist
          simp [Operation.service, Operation.onPool, Operation.listFor?, turned, hlist, answers, hresolve,
            Except.isOk, Except.toBool, UInt64.ofNat_add]
    · rw [poolOf_apply_of_ne _ hop, ih, listFor?_of_ne hop, answers_of_ne _ hop]
      rfl

/-- A resolution comes to what the list that was set last says. -/
theorem resolve_run (service : String) (ops : List Operation) :
    ((lastSet? service ops).getD [] = [] →
      ((empty.run ops).resolve service).1 = .error (.noInstances service)) ∧
    ((lastSet? service ops).getD [] ≠ [] →
      ∃ server ∈ (lastSet? service ops).getD [], ((empty.run ops).resolve service).1 = .ok server) := by
  have hpool := poolOf_run service ops
  rcases (empty.run ops).resolve_cases service with ⟨hnone, hresolve⟩ | ⟨server, hsome, hserver, hresolve⟩
  · rw [hpool] at hnone
    exact ⟨fun _ => by rw [hresolve], fun hsome => absurd hnone hsome⟩
  · rw [hpool] at hsome hserver
    exact ⟨fun hnone => absurd hnone hsome, fun _ => ⟨server, List.mem_of_getElem? hserver, by rw [hresolve]⟩⟩

/-! ## Stretches -/

theorem positions_succ (length start turns : Nat) :
    positions length start (turns + 1) = start % length :: positions length (start + 1) turns := rfl

/-- As long as the list of a service stays, its resolutions take the positions of the list one after the other. -/
theorem picks_of_stretch (service : String) {servers : List Server} (hservers : servers ≠ []) :
    ∀ (ops : List Operation) (r : RoundRobin), (r.poolOf service).servers = servers →
      (∀ list, .set service list ∉ ops) →
      (r.poolOf service).cursor.toNat + ops.count (.resolve service) < twoTo 64 →
        (answers service r ops).map Except.toOption =
          (positions servers.length (r.poolOf service).cursor.toNat (ops.count (.resolve service))).map
            (servers[·]?)
  | [], _, _, _, _ => rfl
  | op :: ops, r, hlist, hset, hfew => by
    have hrest : ∀ list, .set service list ∉ ops := fun list h => hset list (List.mem_cons_of_mem _ h)
    have later := picks_of_stretch service hservers ops (op.apply r)
    by_cases hop : service = op.service
    · subst hop
      cases op with
      | set service list => exact absurd List.mem_cons_self (hset list)
      | resolve service =>
        change (r.poolOf service).servers = servers at hlist
        change (r.poolOf service).cursor.toNat + (.resolve service :: ops).count (.resolve service) < twoTo 64 at hfew
        rcases r.resolve_cases service with ⟨hnone, -⟩ | ⟨server, hsome, hserver, hresolve⟩
        · exact absurd (hlist ▸ hnone) hservers
        · have hnext : (Operation.apply r (.resolve service)).poolOf service =
              { r.poolOf service with cursor := (r.poolOf service).cursor + 1 } :=
            (poolOf_apply_self r (.resolve service)).trans (if_neg hsome)
          rw [List.count_cons_self] at hfew
          -- so few resolutions do not bring the cursor round its 64 bits
          have hcursor : ((r.poolOf service).cursor + 1).toNat = (r.poolOf service).cursor.toNat + 1 := by
            have htwo : twoTo 64 = 2 ^ 64 := rfl
            rw [UInt64.toNat_add, UInt64.toNat_one]
            omega
          have hlater := later ((congrArg ServerPool.servers hnext).trans hlist) hrest
          simp only [Operation.service, hnext, hcursor] at hlater
          simp only [Operation.service, answers, if_true, List.map_cons, hresolve, List.count_cons_self,
            positions_succ, hlater (by omega)]
          rw [← hlist, hserver]
          rfl
    · have hother : op ≠ .resolve service := by rintro rfl; exact hop rfl
      rw [poolOf_apply_of_ne r hop] at later
      rw [List.count_cons_of_ne hother] at hfew ⊢
      rw [answers, if_neg hother]
      exact later hlist hrest hfew

/-! ## Lookups -/

/-- The resolver after lookups of services. -/
def after (r : RoundRobin) (services : List String) : RoundRobin := r.run (services.map .resolve)

theorem after_concat (r : RoundRobin) (services : List String) (service : String) :
    r.after (services ++ [service]) = ((r.after services).resolve service).2 := by
  simp [after, run, Operation.apply]

/-- Lookups only move the cursor on. -/
theorem poolOf_after (hsome : (r.poolOf service).servers ≠ []) (services : List String) :
    (r.after services).poolOf service =
      ⟨(r.poolOf service).servers, (r.poolOf service).cursor + .ofNat (services.count service)⟩ := by
  induction services using List.reverseRecOn with
  | nil => simp [after, run]
  | append_singleton services name ih =>
    rw [after_concat, poolOf_resolve]
    by_cases hname : service = name
    · subst hname
      have hcount : (services ++ [service]).count service = services.count service + 1 := by simp
      rw [if_pos rfl, ih, turned, if_neg hsome, hcount, UInt64.ofNat_add, ← UInt64.add_assoc]
      rfl
    · have hcount : (services ++ [name]).count service = services.count service := by simp [Ne.symm hname]
      rw [if_neg hname, ih, hcount]

/-- The position of a list at which the lookup comes that has so many others before it; the cursor has 64 bits. -/
def position (pool : ServerPool) (lookups : Nat) : Nat :=
  (pool.cursor.toNat + lookups) % twoTo 64 % pool.servers.length

/-- With a list that is not empty a lookup finds the instance that it comes to. -/
theorem resolve_after (hsome : (r.poolOf service).servers ≠ []) (services : List String) :
    ∃ server, ((r.after services).resolve service).1 = .ok server ∧
      (r.poolOf service).servers[position (r.poolOf service) (services.count service)]? = some server := by
  have hpool := poolOf_after hsome services
  rcases (r.after services).resolve_cases service with ⟨hnone, -⟩ | ⟨server, -, hserver, hresolve⟩
  · rw [hpool] at hnone
    exact absurd hnone hsome
  · refine ⟨server, by rw [hresolve], ?_⟩
    have hcursor : ((r.poolOf service).cursor + .ofNat (services.count service)).toNat =
        ((r.poolOf service).cursor.toNat + services.count service) % twoTo 64 := by
      have htwo : twoTo 64 = 2 ^ 64 := rfl
      rw [UInt64.toNat_add, UInt64.toNat_ofNat', htwo, Nat.add_mod_mod]
    rw [hpool, hcursor] at hserver
    exact hserver

/-- Two lookups come to the same position exactly if the length of the list divides their distance, as long as the
cursor does not come round its 64 bits. -/
theorem position_eq_iff {pool : ServerPool} {lookups more : Nat}
    (hfew : pool.cursor.toNat + (lookups + more) < twoTo 64) :
    position pool lookups = position pool (lookups + more) ↔ pool.servers.length ∣ more := by
  have hfirst : pool.cursor.toNat + lookups < twoTo 64 := by omega
  unfold position
  rw [Nat.mod_eq_of_lt hfirst, Nat.mod_eq_of_lt hfew, ← Nat.add_assoc]
  constructor
  · intro h
    have hdistance := Nat.sub_mod_eq_zero_of_mod_eq h.symm
    rw [Nat.add_sub_cancel_left] at hdistance
    exact Nat.dvd_of_mod_eq_zero hdistance
  · rintro ⟨rounds, rfl⟩
    rw [Nat.add_mul_mod_self_left]

/-- In turns round a list, the quotient by its length goes up with every turn of one position. -/
theorem count_positions_add {length p : Nat} (hp : p < length) (start turns : Nat) :
    (positions length start turns).count p + (start + (length - 1 - p)) / length =
      (start + turns + (length - 1 - p)) / length := by
  induction turns with
  | zero => simp [positions]
  | succ turns ih =>
    have hlast : positions length start (turns + 1) = positions length start turns ++ [(start + turns) % length] := by
      unfold positions
      rw [List.range'_concat, List.map_append, Nat.one_mul]
      rfl
    -- the quotient goes up when its dividend reaches a multiple of the length, which is a turn of this position
    have hturn : length ∣ start + turns + (length - 1 - p) + 1 ↔ (start + turns) % length = p := by
      have hrest : (start + turns) % length < length := Nat.mod_lt _ (by omega)
      have hsum : start + turns + (length - 1 - p) + 1 =
          length * ((start + turns) / length) + ((start + turns) % length + (length - p)) := by
        have := Nat.div_add_mod (start + turns) length
        omega
      rw [hsum, Nat.dvd_add_right (Nat.dvd_mul_right _ _)]
      constructor
      · intro hdvd
        have := Nat.eq_of_dvd_of_lt_two_mul (by omega) hdvd (by omega)
        omega
      · rintro rfl
        exact ⟨1, by omega⟩
    have hstep : start + (turns + 1) + (length - 1 - p) = start + turns + (length - 1 - p) + 1 := by omega
    rw [hlast, List.count_append, List.count_singleton, hstep, Nat.succ_div, ← ih]
    simp only [hturn, beq_iff_eq]
    omega

/-- In turns round a list, no position comes up more than once more than another. -/
theorem count_positions {length p : Nat} (hp : p < length) (start turns : Nat) :
    (positions length start turns).count p = turns / length ∨
      (positions length start turns).count p = (turns + (length - 1)) / length := by
  have hcount := count_positions_add hp start turns
  have hpos : 0 < length := by omega
  have hrest : (start + (length - 1 - p)) % length < length := Nat.mod_lt _ hpos
  have hfloor : (start + turns + (length - 1 - p)) / length = (start + (length - 1 - p)) / length + turns / length +
      if length ≤ (start + (length - 1 - p)) % length + turns % length then 1 else 0 := by
    rw [← Nat.add_div hpos]
    exact congrArg (· / length) (by omega)
  have hceil : (turns + (length - 1)) / length = turns / length + if 1 ≤ turns % length then 1 else 0 := by
    have hlast : length - 1 < length := by omega
    rw [Nat.add_div hpos, Nat.div_eq_of_lt hlast, Nat.mod_eq_of_lt hlast]
    exact congrArg _ (if_congr (by omega) rfl rfl)
  split at hfloor <;> split at hceil <;> omega

end Operations

/-! ## The rotation -/

/-- However the operations of all callers on a new resolver are interleaved: a resolution fails if the list that was
set last for its service is empty or there is none, and otherwise finds an entry of that list; operations on other
services change none of its answers; and as long as no list is set for it, the picks are successive positions of its
list, round and round, so that no position is picked more than once more than another. -/
theorem rotation (service : String) (ops : List Operation) (hfew : ops.count (.resolve service) < twoTo 64) :
    (∀ before after, ops = before ++ .resolve service :: after →
      (((empty.run before).resolve service).1 = .error (.noInstances service) ↔
        (lastSet? service before).getD [] = []) ∧
      ((lastSet? service before).getD [] ≠ [] →
        ∃ server ∈ (lastSet? service before).getD [], ((empty.run before).resolve service).1 = .ok server)) ∧
    answers service empty ops = answers service empty (ops.filter fun op => op.service == service) ∧
    ∀ before stretch after servers, ops = before ++ stretch ++ after → lastSet? service before = some servers →
      servers ≠ [] → (∀ list, .set service list ∉ stretch) →
        let turns := stretch.count (.resolve service)
        let picks := positions servers.length (served service before) turns
        (answers service (empty.run before) stretch).map Except.toOption = picks.map (servers[·]?) ∧
          ∀ p < servers.length, picks.count p = turns / servers.length ∨
            picks.count p = (turns + (servers.length - 1)) / servers.length := by
  refine ⟨fun before after _ => ?_, answers_filter service ops rfl, ?_⟩
  · obtain ⟨hnone, hsome⟩ := resolve_run service before
    refine ⟨⟨fun herror => ?_, hnone⟩, hsome⟩
    by_contra h
    obtain ⟨server, -, hok⟩ := hsome h
    cases herror.symm.trans hok
  · intro before stretch after servers hops hlast hservers hset turns picks
    refine ⟨?_, fun p hp => count_positions hp _ _⟩
    have hpool : (empty.run before).poolOf service = ⟨servers, .ofNat (served service before)⟩ := by
      rw [poolOf_run, hlast]
      rfl
    have hcount : before.count (.resolve service) + turns < twoTo 64 := by
      rw [hops, List.count_append, List.count_append] at hfew
      omega
    have hserved := served_le service before
    have hcursor : ((empty.run before).poolOf service).cursor.toNat = served service before := by
      rw [hpool]
      exact UInt64.toNat_ofNat_of_lt' (by have : twoTo 64 = UInt64.size := rfl; omega)
    have hpicks := picks_of_stretch service hservers stretch (empty.run before) (by rw [hpool]) hset
    rw [hcursor] at hpicks
    exact hpicks (by omega)

/-- Three picks from two instances after a pick from another list: the list starts at its second entry. -/
theorem rotation_of_replaced_list :
    let at80 (host : String) : Server := ⟨host, 80, false, []⟩
    let before : List Operation :=
      [.set "orders" [at80 "a", at80 "b"], .resolve "orders", .set "orders" [at80 "c", at80 "d"]]
    let stretch : List Operation := [.resolve "orders", .set "users" [], .resolve "orders", .resolve "orders"]
    (before ++ stretch).count (.resolve "orders") < twoTo 64 ∧
      (answers "orders" (empty.run before) stretch).map Except.toOption =
        [some (at80 "d"), some (at80 "c"), some (at80 "d")] := by
  intro at80 before stretch
  have hfew : (before ++ stretch).count (.resolve "orders") < twoTo 64 := by decide
  refine ⟨hfew, ?_⟩
  have hpicks := (rotation "orders" (before ++ stretch) hfew).2.2 before stretch [] [at80 "c", at80 "d"]
    (List.append_nil _).symm rfl (List.cons_ne_nil _ _) (by simp [stretch])
  exact hpicks.1.trans (by decide)

end ResilientClient.RoundRobin
