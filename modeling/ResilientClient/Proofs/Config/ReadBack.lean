/-
Configurations read back from JSON. Scalars are read back from their written values as far as they fit into the
numbers of the format, and records from those of their fields, so that a configuration is read back exactly if all
its numbers fit (`ofJson?_written`). What is absent is written as `null` and not left out: it stays absent and does
not become the default.
-/
import ResilientClient.Proofs.Config.Rearranged
import ResilientClient.Proofs.Duration.Amounts

namespace ResilientClient

open Json

/-! ## Scalars -/

theorem roundTrips_bool : RoundTrips Json.bool bool? fun _ => True :=
  .of_simple (fun _ => nofun) fun b => by simp [bool?]

theorem roundTrips_string : RoundTrips Json.string string? fun _ => True :=
  .of_simple (fun _ => nofun) fun s => by simp [string?]

theorem roundTrips_natUpTo (limit : Nat) : RoundTrips Json.ofNat (natUpTo? limit) (· ≤ limit) :=
  .of_simple (fun _ => nofun) fun n => by simp [natUpTo?, Json.ofNat]

/-- A number in 32 bits fits. -/
theorem roundTrips_narrow : RoundTrips (fun n : UInt32 => .ofNat n.toNat) narrow? fun _ => True := by
  refine .of_simple (fun _ => nofun) fun n => ?_
  have hle : n.toNat ≤ counterMax := Nat.le_of_lt_succ n.toNat_lt
  have hread : counter? (.ofNat n.toNat) = some n.toNat := (roundTrips_natUpTo counterMax _ _ (.same _)).2 hle
  simp [narrow?, hread]

theorem roundTrips_duration : RoundTrips Json.ofDuration duration? fun _ => True :=
  .of_simple (fun _ => nofun) fun d => by simp [duration?, Json.ofDuration, string?, Duration.Human.parse?_render]

/-- There are JSON numbers for finite words only. -/
theorem roundTrips_binary64 : RoundTrips Json.ofBinary64 binary64? fun x => x.isFinite = true := by
  refine .of_simple (fun x => ?_) fun x => ?_
  · unfold Json.ofBinary64
    split <;> exact nofun
  · unfold Json.ofBinary64
    split <;> simp_all [binary64?]

/-! ## Backoff and retries -/

namespace ExponentialBackoff

/-- The factor has a JSON number. -/
def Fits (b : ExponentialBackoff) : Prop := b.multiplier.isFinite = true

theorem roundTrips : RoundTrips toJson ofJson? Fits := by
  rintro ⟨initial, max, multiplier, jitter⟩ v hv
  obtain ⟨fields, hfields, hread⟩ := hv.record (rfl : _ = fieldNames) (by decide)
  simp only [ofJson?, hfields, Option.bind_eq_bind, Option.bind_some, Option.pure_def, Option.bind_eq_some_iff,
    Option.some.injEq, mk.injEq, existsAndEq, true_and]
  rw [hread roundTrips_duration, hread roundTrips_duration, hread roundTrips_binary64, hread roundTrips_bool]
  · simp [Fits]
  all_goals simp [members]

end ExponentialBackoff

namespace Backoff

/-- The factor of an exponential delay has a JSON number. -/
def Fits : Backoff → Prop
  | .exponential growth => growth.Fits
  | _ => True

/-- Behind the name of the case stands the case. -/
theorem ofJson?_of_tag {tag : String} {written : List (String × Json)} {v : Json}
    (hv : (Json.object (("type", .string tag) :: written)).Rearranged v) (hfree : "type" ∉ written.map Prod.fst) :
    ∃ rest, (Json.object written).Rearranged rest ∧ ofJson? v = ofTagged? tag rest := by
  obtain ⟨fields, change, rfl, hparts, horder⟩ := hv.of_object
  have htag : change ("type", .string tag) = .string tag :=
    (hparts _ List.mem_cons_self).eq_of_simple nofun
  rw [List.map_cons, htag] at horder
  have hothers : ∀ member ∈ written.map fun member => (member.1, change member), member.1 ≠ "type" := by
    intro member hmember hsame
    obtain ⟨given, hgiven, rfl⟩ := List.mem_map.1 hmember
    exact hfree (List.mem_map.2 ⟨given, hgiven, hsame⟩)
  have htags : (fields.filter fun member => member.1 == "type") = [("type", .string tag)] := by
    refine List.perm_singleton.1 ((horder.filter _).trans (.of_eq ?_))
    rw [List.filter_cons_of_pos (by simp), List.filter_eq_nil_iff.2 fun member hmember => by simpa using hothers _ hmember]
  have hrest : (fields.filter fun member => member.1 != "type").Perm
      (written.map fun member => (member.1, change member)) := by
    refine (horder.filter _).trans (.of_eq ?_)
    rw [List.filter_cons_of_neg (by simp), List.filter_eq_self.2 fun member hmember => by simpa using hothers _ hmember]
  refine ⟨_, .object change (fun member hmember => hparts member (List.mem_cons_of_mem _ hmember)) hrest, ?_⟩
  simp only [ofJson?, htags]

theorem roundTrips : RoundTrips toJson ofJson? Fits := by
  intro b v hv
  cases b with
  | none =>
    obtain ⟨rest, hrest, hread⟩ := ofJson?_of_tag hv List.not_mem_nil
    obtain ⟨fields, -, rfl, -, -⟩ := hrest.of_object
    rw [hread]
    exact iff_of_true rfl trivial
  | fixed delay =>
    obtain ⟨rest, hrest, hread⟩ := ofJson?_of_tag hv (show "type" ∉ ["delay"] by decide)
    have hdelay : duration? (.ofDuration delay) = some delay := (roundTrips_duration delay _ (.same _)).2 trivial
    rw [hread, hrest.eq_of_single nofun]
    simp [ofTagged?, fields?, hdelay, Fits]
  | exponential growth =>
    obtain ⟨rest, hrest, hread⟩ := ofJson?_of_tag hv (show "type" ∉ ExponentialBackoff.fieldNames by decide)
    have hgrowth := ExponentialBackoff.roundTrips growth rest hrest
    rw [hread]
    simp [ofTagged?, hgrowth, Fits]

end Backoff

namespace RetryConfig

/-- The budget fits into 32 bits. -/
@[mk_iff]
structure Fits (c : RetryConfig) : Prop where
  maxRetries : c.maxRetries ≤ counterMax
  backoff : c.backoff.Fits

theorem roundTrips : RoundTrips toJson ofJson? Fits := by
  rintro ⟨maxRetries, backoff, retryClientErrors⟩ v hv
  obtain ⟨fields, hfields, hread⟩ := hv.record (rfl : _ = fieldNames) (by decide)
  simp only [ofJson?, hfields, Option.bind_eq_bind, Option.bind_some, Option.pure_def, Option.bind_eq_some_iff,
    Option.some.injEq, mk.injEq, existsAndEq, true_and]
  rw [counter?, hread (roundTrips_natUpTo _), hread Backoff.roundTrips, hread roundTrips_bool]
  · simp [fits_iff]
  all_goals simp

end RetryConfig

/-! ## Balancing and breaking -/

namespace BalancerConfig

/-- The budgets fit into 32 bits. -/
@[mk_iff]
structure Fits (c : BalancerConfig) : Prop where
  retriesOnSame : c.retriesOnSame ≤ counterMax
  retriesOnNext : c.retriesOnNext ≤ counterMax

theorem roundTrips : RoundTrips toJson ofJson? Fits := by
  rintro ⟨retriesOnSame, retriesOnNext⟩ v hv
  obtain ⟨fields, hfields, hread⟩ := hv.record (rfl : _ = fieldNames) (by decide)
  simp only [ofJson?, hfields, Option.bind_eq_bind, Option.bind_some, Option.pure_def, Option.bind_eq_some_iff,
    Option.some.injEq, mk.injEq, existsAndEq, true_and]
  rw [counter?, hread (roundTrips_natUpTo _), hread (roundTrips_natUpTo _)]
  · simp [fits_iff]
  all_goals simp

end BalancerConfig

namespace BreakerConfig

/-- Every configuration of a breaker is read back. -/
theorem roundTrips : RoundTrips toJson ofJson? fun _ => True := by
  rintro ⟨failureThreshold, minimumCalls, rollingWindow, sleepWindow, halfOpenMaxCalls, executionTimeout, uniquifier,
    keyByTarget⟩ v hv
  obtain ⟨fields, hfields, hread⟩ := hv.record (rfl : _ = fieldNames) (by decide)
  simp only [ofJson?, hfields, Option.bind_eq_bind, Option.bind_some, Option.pure_def, Option.bind_eq_some_iff,
    Option.some.injEq, mk.injEq, existsAndEq, true_and]
  rw [hread roundTrips_narrow, hread roundTrips_narrow, hread roundTrips_duration, hread roundTrips_duration,
    hread roundTrips_narrow, hread (roundTrips_duration.nullable nofun), hread (roundTrips_string.nullable nofun),
    hread roundTrips_bool]
  · simp
  all_goals simp

end BreakerConfig

/-! ## Transport -/

theorem TlsRoots.roundTrips : RoundTrips toJson ofJson? fun _ => True :=
  .of_simple (fun roots => by cases roots <;> exact nofun) fun roots => by cases roots <;> decide

namespace TransportOptions

/-- The number of idle connections fits into 64 bits. -/
def Fits (o : TransportOptions) : Prop := o.poolMaxIdlePerHost ≤ twoTo 64 - 1

theorem roundTrips : RoundTrips toJson ofJson? Fits := by
  rintro ⟨connectTimeout, requestTimeout, compression, followRedirects, proxy, poolIdleTimeout, poolMaxIdlePerHost,
    allowInsecureHttp, tlsRoots⟩ v hv
  obtain ⟨fields, hfields, hread⟩ := hv.record (rfl : _ = fieldNames) (by decide)
  simp only [ofJson?, hfields, Option.bind_eq_bind, Option.bind_some, Option.pure_def, Option.bind_eq_some_iff,
    Option.some.injEq, mk.injEq, existsAndEq, true_and]
  rw [size?, hread roundTrips_duration, hread (roundTrips_duration.nullable nofun), hread roundTrips_bool,
    hread roundTrips_bool, hread (roundTrips_string.nullable nofun), hread (roundTrips_duration.nullable nofun),
    hread (roundTrips_natUpTo _), hread roundTrips_bool, hread TlsRoots.roundTrips]
  · simp [Fits]
  all_goals simp

end TransportOptions

/-! ## Clients -/

theorem LogLevel.roundTrips : RoundTrips toJson ofJson? fun _ => True :=
  .of_simple (fun _ => nofun) fun level => by cases level <;> decide

namespace ClientConfig

/-- All numbers fit into those of the format: budgets into 32 bits, sizes into 64, and the factor of an exponential
delay is finite. -/
@[mk_iff]
structure Fits (c : ClientConfig) : Prop where
  maxBodySize : c.maxBodySize ≤ twoTo 64 - 1
  retry : ∀ retry ∈ c.retry, retry.Fits
  balancer : ∀ balancer ∈ c.balancer, balancer.Fits
  transport : c.transport.Fits

theorem roundTrips : RoundTrips toJson ofJson? Fits := by
  rintro ⟨logLevel, decode404, maxBodySize, userAgent, retry, balancer, breaker, transport⟩ v hv
  obtain ⟨fields, hfields, hread⟩ := hv.record (rfl : _ = fieldNames) (by decide)
  simp only [ofJson?, hfields, Option.bind_eq_bind, Option.bind_some, Option.pure_def, Option.bind_eq_some_iff,
    Option.some.injEq, mk.injEq, existsAndEq, true_and]
  rw [size?, hread LogLevel.roundTrips, hread roundTrips_bool, hread (roundTrips_natUpTo _), hread roundTrips_string,
    hread (RetryConfig.roundTrips.nullable nofun), hread (BalancerConfig.roundTrips.nullable nofun),
    hread (BreakerConfig.roundTrips.nullable nofun), hread TransportOptions.roundTrips]
  · simp [fits_iff]
  all_goals simp

end ClientConfig

/-! ## Sorted members -/

theorem rearranged_ofOption {α : Type} {write : α → Json} (h : ∀ a, (write a).Rearranged (write a).normalize)
    (o : Option α) : (Json.ofOption write o).Rearranged (Json.ofOption write o).normalize := by
  cases o with
  | none => exact .same _
  | some a => exact h a

theorem rearranged_ofBinary64 (x : Binary64) : (Json.ofBinary64 x).Rearranged (Json.ofBinary64 x).normalize := by
  unfold Json.ofBinary64
  split <;> exact .same _

namespace Backoff

theorem rearranged_toJson (b : Backoff) : b.toJson.Rearranged b.toJson.normalize := by
  cases b with
  | none => exact rearranged_normalize (show ["type"].Nodup by decide) (by simpa using .same _)
  | fixed delay =>
    refine rearranged_normalize (show ["type", "delay"].Nodup by decide) ?_
    simp only [List.forall_mem_cons]
    exact ⟨.same _, .same _, nofun⟩
  | exponential growth =>
    refine rearranged_normalize (show ("type" :: ExponentialBackoff.fieldNames).Nodup by decide) ?_
    simp only [ExponentialBackoff.members, List.forall_mem_cons]
    exact ⟨.same _, .same _, .same _, rearranged_ofBinary64 _, .same _, nofun⟩

end Backoff

theorem RetryConfig.rearranged_toJson (c : RetryConfig) : c.toJson.Rearranged c.toJson.normalize := by
  refine rearranged_normalize (show fieldNames.Nodup by decide) ?_
  simp only [List.forall_mem_cons]
  exact ⟨.same _, c.backoff.rearranged_toJson, .same _, nofun⟩

theorem BalancerConfig.rearranged_toJson (c : BalancerConfig) : c.toJson.Rearranged c.toJson.normalize := by
  refine rearranged_normalize (show fieldNames.Nodup by decide) ?_
  simp only [List.forall_mem_cons]
  exact ⟨.same _, .same _, nofun⟩

theorem BreakerConfig.rearranged_toJson (c : BreakerConfig) : c.toJson.Rearranged c.toJson.normalize := by
  refine rearranged_normalize (show fieldNames.Nodup by decide) ?_
  simp only [List.forall_mem_cons]
  exact ⟨.same _, .same _, .same _, .same _, .same _, rearranged_ofOption (fun _ => .same _) _,
    rearranged_ofOption (fun _ => .same _) _, .same _, nofun⟩

theorem TlsRoots.rearranged_toJson (roots : TlsRoots) : roots.toJson.Rearranged roots.toJson.normalize := by
  cases roots <;> exact .same _

theorem TransportOptions.rearranged_toJson (o : TransportOptions) : o.toJson.Rearranged o.toJson.normalize := by
  refine rearranged_normalize (show fieldNames.Nodup by decide) ?_
  simp only [List.forall_mem_cons]
  exact ⟨.same _, rearranged_ofOption (fun _ => .same _) _, .same _, .same _, rearranged_ofOption (fun _ => .same _) _,
    rearranged_ofOption (fun _ => .same _) _, .same _, .same _, o.tlsRoots.rearranged_toJson, nofun⟩

namespace ClientConfig

theorem rearranged_toJson (c : ClientConfig) : c.toJson.Rearranged c.toJson.normalize := by
  refine rearranged_normalize (show fieldNames.Nodup by decide) ?_
  simp only [List.forall_mem_cons]
  exact ⟨.same _, .same _, .same _, .same _, rearranged_ofOption RetryConfig.rearranged_toJson _,
    rearranged_ofOption BalancerConfig.rearranged_toJson _, rearranged_ofOption BreakerConfig.rearranged_toJson _,
    c.transport.rearranged_toJson, nofun⟩

/-- A configuration is read back from its JSON value, with the members as they were written as well as sorted by
name, exactly if all its numbers fit. -/
theorem ofJson?_written (c : ClientConfig) :
    (ofJson? c.toJson = some c ↔ c.Fits) ∧ (ofJson? c.toJson.normalize = some c ↔ c.Fits) :=
  ⟨roundTrips c _ (.same _), roundTrips c _ c.rearranged_toJson⟩

/-- Neither the sections nor the time limit that are absent come back as their defaults. -/
example : ∃ c, ofJson? (toJson { minimal with transport := { TransportOptions.default with requestTimeout := none } }) =
    some c ∧ c.retry = none ∧ c.balancer = none ∧ c.transport.requestTimeout = none :=
  ⟨{ minimal with transport := { TransportOptions.default with requestTimeout := none } }, by decide +kernel⟩

end ClientConfig

end ResilientClient
