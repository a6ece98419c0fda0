/-
JSON values, line by line. A body arrives in chunks that end anywhere, and its values are those of the lines of the
whole text, up to the first failure (`values_of_lines`): for the values as they are defined, for a reader that
interleaves reading and cutting lines, and for the stream of a method (`values_of_deliverLines`). What the values of
a text are is said by its lines alone (`Framed`): a line of nothing but white space has none, and any other is
decoded without the white space at its ends. `framed` computes them.
-/
import ResilientClient.Proofs.Client.Scanning
import ResilientClient.Proofs.Text.Trimming
import Mathlib.Data.List.TakeWhile

namespace ResilientClient

namespace Ndjson

variable {α : Type} {decoder : Json.Decoder α}

/-! ## Lines of the whole text -/

/-- Everything that arrives before the first failure. -/
def received : List (Except Error Bytes) → Bytes
  | [] => []
  | .ok chunk :: items => chunk ++ received items
  | .error _ :: _ => []

/-- The first failure. -/
def failure? : List (Except Error Bytes) → Option Error
  | [] => none
  | .ok _ :: items => failure? items
  | .error e :: _ => some e

/-- What stands behind the first failure. -/
def unread : List (Except Error Bytes) → List (Except Error Bytes)
  | [] => []
  | .ok _ :: items => unread items
  | .error _ :: items => items

/-- The values of lines, one for each line that is not blank: what it decodes to, or that it does not decode. -/
inductive LineValues (decoder : Json.Decoder α) : List Bytes → List (Except Error α) → Prop
  | nil : LineValues decoder [] []
  | blank {line : Bytes} {lines : List Bytes} {values : List (Except Error α)} :
      (∀ b ∈ line, Bytes.White b) → LineValues decoder lines values → LineValues decoder (line :: lines) values
  | value {line inner : Bytes} {lines : List Bytes} {values : List (Except Error α)} :
      Trims Bytes.White line inner → inner ≠ [] → LineValues decoder lines values →
      LineValues decoder (line :: lines) ((Json.Decoder.run decoder inner).mapError .json :: values)

/-- The values of a text by its lines. If a failure breaks the text off, what stands behind its last newline is
dropped and the failure comes last. -/
inductive Framed (decoder : Json.Decoder α) (text : Bytes) : Option Error → List (Except Error α) → Prop
  | whole {values : List (Except Error α)} : LineValues decoder (text.splitOn newline) values →
      Framed decoder text none values
  | broken {values : List (Except Error α)} {e : Error} :
      LineValues decoder (text.splitOn newline).dropLast values → Framed decoder text (some e) (values ++ [.error e])

/-- The values of the lines of a text, as they are computed. -/
def framed (decoder : Json.Decoder α) (text : Bytes) : Option Error → List (Except Error α)
  | none => (significant (text.splitOn newline)).map (decode decoder)
  | some e => (significant (text.splitOn newline).dropLast).map (decode decoder) ++ [.error e]

section Texts

variable {line text : Bytes} {lines : List Bytes} {end? : Option Error}

theorem significant_cons (line : Bytes) (lines : List Bytes) :
    significant (line :: lines) = significant [line] ++ significant lines := by
  unfold significant
  rw [List.map_cons, ← List.singleton_append, List.filter_append]
  rfl

theorem significant_singleton (line : Bytes) :
    significant [line] = if (Bytes.trim line).isEmpty then [] else [Bytes.trim line] := by
  unfold significant
  cases hblank : (Bytes.trim line).isEmpty <;> simp [hblank]

theorem decode_eq (decoder : Json.Decoder α) (line : Bytes) :
    decode decoder line = (Json.Decoder.run decoder line).mapError .json := by
  unfold decode
  cases Json.Decoder.run decoder line <;> rfl

theorem lineValues_significant (decoder : Json.Decoder α) (lines : List Bytes) :
    LineValues decoder lines ((significant lines).map (decode decoder)) := by
  induction lines with
  | nil => exact .nil
  | cons line lines ih =>
    rw [significant_cons, significant_singleton]
    split
    · rename_i hblank
      exact .blank (Bytes.trim_eq_nil_iff.1 (List.isEmpty_iff.1 hblank)) ih
    · rename_i hblank
      rw [List.map_append, List.map_singleton, decode_eq]
      exact .value (Bytes.trim_eq_iff.1 rfl) (fun hnil => hblank (List.isEmpty_iff.2 hnil)) ih

theorem LineValues.eq {values : List (Except Error α)} (h : LineValues decoder lines values) :
    values = (significant lines).map (decode decoder) := by
  induction h with
  | nil => rfl
  | blank hblank _ ih =>
    rw [significant_cons, significant_singleton, Bytes.trim_eq_nil_iff.2 hblank, ih]
    rfl
  | value htrims hsome _ ih =>
    rw [significant_cons, significant_singleton, Bytes.trim_eq_iff.2 htrims,
      if_neg fun hnil => hsome (List.isEmpty_iff.1 hnil), ih, ← decode_eq]
    rfl

/-- The computed values are the only ones. -/
theorem framed_iff {values : List (Except Error α)} :
    Framed decoder text end? values ↔ values = framed decoder text end? := by
  constructor
  · rintro (hlines | hlines)
    · exact hlines.eq
    · rw [hlines.eq]
      rfl
  · rintro rfl
    cases end? with
    | none => exact .whole (lineValues_significant decoder _)
    | some e => exact .broken (lineValues_significant decoder _)

/-- The first line is decoded first. -/
theorem framed_line (hline : newline ∉ line) (text : Bytes) (end? : Option Error) :
    framed decoder (line ++ newline :: text) end? =
      (significant [line]).map (decode decoder) ++ framed decoder text end? := by
  have hsplit : (line ++ newline :: text).splitOn newline = line :: text.splitOn newline :=
    List.splitOn_append_cons_self_of_not_mem hline text
  cases end? with
  | none => rw [framed, framed, hsplit, significant_cons, List.map_append]
  | some e =>
    rw [framed, framed, hsplit, List.dropLast_cons_of_ne_nil (List.splitOn_ne_nil _ _), significant_cons,
      List.map_append, List.append_assoc]

/-- An unfinished line is decoded only if no failure cuts it off. -/
theorem framed_unfinished (hline : newline ∉ line) (end? : Option Error) : framed decoder line end? =
    match end? with
    | none => (significant [line]).map (decode decoder)
    | some e => [.error e] := by
  cases end? with
  | none => rw [framed, List.splitOn_eq_singleton hline]
  | some e =>
    rw [framed, List.splitOn_eq_singleton hline]
    rfl

theorem newline_not_mem_split (hline : newline ∉ line) (text : Bytes) : newline ∉ (split line text).2 := by
  induction text generalizing line with
  | nil => exact hline
  | cons b text ih =>
    unfold split
    split
    · exact ih List.not_mem_nil
    · rename_i hb
      refine ih fun hmem => ?_
      rcases List.mem_cons.1 hmem with rfl | hmem
      · exact hb (beq_self_eq_true _)
      · exact hline hmem

/-- Lines that are cut out of a chunk are the first lines of the whole text. -/
theorem framed_split (hline : newline ∉ line) (text more : Bytes) (end? : Option Error) :
    framed decoder (line.reverse ++ (text ++ more)) end? =
      (significant (split line text).1).map (decode decoder) ++
        framed decoder ((split line text).2.reverse ++ more) end? := by
  induction text generalizing line with
  | nil => rfl
  | cons b text ih =>
    unfold split
    split
    · rename_i hb
      obtain rfl := beq_iff_eq.1 hb
      have hrest := @ih [] List.not_mem_nil
      rw [List.reverse_nil, List.nil_append] at hrest
      rw [List.cons_append, framed_line (by simpa using hline), hrest, ← List.append_assoc, ← List.map_append,
        ← significant_cons]
    · rename_i hb
      rw [← ih fun hmem => ?_]
      · simp
      · rcases List.mem_cons.1 hmem with rfl | hmem
        · exact hb (beq_self_eq_true _)
        · exact hline hmem

theorem readBehind_eq (hline : newline ∉ line) (items : List (Except Error Bytes)) :
    readBehind decoder line items = framed decoder (line.reverse ++ received items) (failure? items) := by
  have hreverse : newline ∉ line.reverse := by simpa using hline
  induction items generalizing line with
  | nil =>
    rw [received, List.append_nil]
    exact (framed_unfinished hreverse none).symm
  | cons item items ih =>
    cases item with
    | error e =>
      rw [received, List.append_nil]
      exact (framed_unfinished hreverse (some e)).symm
    | ok chunk =>
      have hlast := newline_not_mem_split hline chunk
      rw [received, failure?, framed_split hline, ← ih hlast (by simpa using hlast)]
      rfl

/-- The values of a body are those of the lines of its text. -/
theorem read_eq (decoder : Json.Decoder α) (items : List (Except Error Bytes)) :
    read decoder items = framed decoder (received items) (failure? items) :=
  readBehind_eq List.not_mem_nil items

end Texts

/-! ## A reader that goes on turn by turn -/

/-- A reader of lines: what is left of the body, the bytes that are held back, and whether the body is over. -/
structure Reader where
  items : List (Except Error Bytes)
  buffer : Bytes
  ended : Bool

/-- What one turn of a reader comes to. -/
inductive Turn (α : Type) where
  | again (next : Reader)
  | yields (value : Except Error α) (next : Reader)
  | finished

namespace Reader

/-- The reader before the first turn. -/
def start (items : List (Except Error Bytes)) : Reader := ⟨items, [], false⟩

/-- Hands over the value of a line, unless it is blank. -/
def hand (decoder : Json.Decoder α) (line : Bytes) (next : Reader) : Turn α → Turn α :=
  fun blank => if (Bytes.trim line).isEmpty then blank else .yields (decode decoder (Bytes.trim line)) next

/-- One turn: the first line that is held back is cut off. If there is none, the reader takes an item of the body, and
when the body is over what is left is the last line. -/
def turn (decoder : Json.Decoder α) (r : Reader) : Turn α :=
  match r.buffer.dropWhile (· != newline) with
  | _ :: behind =>
    let next := { r with buffer := behind }
    hand decoder (r.buffer.takeWhile (· != newline)) next (.again next)
  | [] =>
    if r.ended then hand decoder r.buffer { r with buffer := [] } .finished
    else
      match r.items with
      | [] => .again { r with ended := true }
      | .ok chunk :: items => .again ⟨items, r.buffer ++ chunk, false⟩
      | .error e :: items => .yields (.error e) ⟨items, [], true⟩

/-- The values that a reader hands over up to its end, and the items that it leaves. -/
inductive Drains (decoder : Json.Decoder α) : Reader → List (Except Error α) → List (Except Error Bytes) → Prop
  | finished {r : Reader} : turn decoder r = .finished → Drains decoder r [] r.items
  | again {r next : Reader} {values : List (Except Error α)} {left : List (Except Error Bytes)} :
      turn decoder r = .again next → Drains decoder next values left → Drains decoder r values left
  | yields {r next : Reader} {value : Except Error α} {values : List (Except Error α)}
      {left : List (Except Error Bytes)} :
      turn decoder r = .yields value next → Drains decoder next values left → Drains decoder r (value :: values) left

/-- The values that are to come. -/
def ahead (decoder : Json.Decoder α) (r : Reader) : List (Except Error α) :=
  if r.ended then framed decoder r.buffer none
  else framed decoder (r.buffer ++ received r.items) (failure? r.items)

/-- The items that will be left. -/
def left (r : Reader) : List (Except Error Bytes) := if r.ended then r.items else unread r.items

/-- The bytes and items that are left to go through. -/
def weight (r : Reader) : Nat :=
  r.buffer.length + (r.items.map fun item => match item with
    | .ok chunk => chunk.length + 1
    | .error _ => 1).sum + if r.ended then 0 else 1

/-- A turn goes on, and leaves exactly what is still to come. -/
def Fits (decoder : Json.Decoder α) (r : Reader) : Turn α → Prop
  | .again next => next.weight < r.weight ∧ r.ahead decoder = next.ahead decoder ∧ r.left = next.left
  | .yields value next => next.weight < r.weight ∧ r.ahead decoder = value :: next.ahead decoder ∧ r.left = next.left
  | .finished => r.ahead decoder = [] ∧ r.left = r.items

variable {r : Reader}

/-- Where a newline is held back, a line is in front of it. -/
theorem buffer_of_newline {b : UInt8} {behind : Bytes} (h : r.buffer.dropWhile (· != newline) = b :: behind) :
    newline ∉ r.buffer.takeWhile (· != newline) ∧
      r.buffer = r.buffer.takeWhile (· != newline) ++ newline :: behind := by
  have hb := List.head?_dropWhile_not (· != newline) r.buffer
  rw [h] at hb
  obtain rfl : b = newline := by simpa using hb
  refine ⟨fun hmem => ?_, by rw [← h, List.takeWhile_append_dropWhile]⟩
  simpa using List.mem_takeWhile_imp hmem

theorem newline_not_mem_buffer (h : r.buffer.dropWhile (· != newline) = []) : newline ∉ r.buffer := by
  intro hmem
  simpa using List.dropWhile_eq_nil_iff.1 h newline hmem

/-- The values in front of a newline are those of the line. -/
theorem ahead_line (decoder : Json.Decoder α) {line behind : Bytes} (hline : newline ∉ line)
    (hbuffer : r.buffer = line ++ newline :: behind) :
    r.ahead decoder = (significant [line]).map (decode decoder) ++ { r with buffer := behind }.ahead decoder := by
  unfold ahead
  rw [hbuffer]
  dsimp only
  split
  · exact framed_line hline _ _
  · rw [List.append_assoc]
    exact framed_line hline _ _

/-- The value of a line comes first, unless the line is blank. -/
theorem fits_hand {line : Bytes} {next : Reader} {blank : Turn α}
    (hahead : r.ahead decoder = (significant [line]).map (decode decoder) ++ next.ahead decoder)
    (hweight : line ≠ [] → next.weight < r.weight) (hleft : r.left = next.left)
    (hblank : r.ahead decoder = next.ahead decoder → Fits decoder r blank) :
    Fits decoder r (hand decoder line next blank) := by
  rw [significant_singleton] at hahead
  unfold hand
  split
  · rename_i htrim
    rw [if_pos htrim] at hahead
    exact hblank hahead
  · rename_i htrim
    rw [if_neg htrim] at hahead
    refine ⟨hweight ?_, hahead, hleft⟩
    rintro rfl
    exact htrim rfl

theorem turn_fits (decoder : Json.Decoder α) (r : Reader) : Fits decoder r (turn decoder r) := by
  unfold turn
  split
  · rename_i b behind hdrop
    obtain ⟨hline, hbuffer⟩ := buffer_of_newline hdrop
    have hweight : { r with buffer := behind }.weight < r.weight := by
      have hlength := congrArg List.length hbuffer
      simp only [List.length_append, List.length_cons] at hlength
      unfold weight
      dsimp only
      omega
    exact fits_hand (ahead_line decoder hline hbuffer) (fun _ => hweight) rfl fun hahead => ⟨hweight, hahead, rfl⟩
  · rename_i hdrop
    have hnone := newline_not_mem_buffer hdrop
    obtain ⟨items, buffer, ended⟩ := r
    cases ended with
    | true =>
      have hahead : Reader.ahead decoder ⟨items, buffer, true⟩ =
          (significant [buffer]).map (decode decoder) ++ Reader.ahead decoder ⟨items, [], true⟩ :=
        (framed_unfinished hnone none).trans (List.append_nil _).symm
      refine fits_hand hahead (fun hsome => ?_) rfl fun hahead => ⟨hahead, rfl⟩
      have hpos : 0 < buffer.length := List.length_pos_iff.2 hsome
      simp only [weight, List.length_nil]
      omega
    | false =>
      cases items with
      | nil => exact ⟨by simp [weight], by simp [ahead, received, failure?], rfl⟩
      | cons item items =>
        cases item with
        | ok chunk => exact ⟨by simp [weight]; omega, by simp [ahead, received, failure?], rfl⟩
        | error e =>
          refine ⟨by simp [weight]; omega, ?_, rfl⟩
          change framed decoder (buffer ++ []) (some e) = _
          rw [List.append_nil, framed_unfinished hnone]
          rfl

theorem fits_of_turn {t : Turn α} (h : turn decoder r = t) : Fits decoder r t := h ▸ turn_fits decoder r

/-- A reader comes to its end with what was ahead. -/
theorem drains (decoder : Json.Decoder α) (r : Reader) : Drains decoder r (r.ahead decoder) r.left := by
  induction hweight : r.weight using Nat.strong_induction_on generalizing r with
  | _ weight ih =>
    subst hweight
    cases hturn : turn decoder r with
    | again next =>
      obtain ⟨hless, hahead, hleft⟩ := fits_of_turn hturn
      rw [hahead, hleft]
      exact .again hturn (ih _ hless next rfl)
    | yields value next =>
      obtain ⟨hless, hahead, hleft⟩ := fits_of_turn hturn
      rw [hahead, hleft]
      exact .yields hturn (ih _ hless next rfl)
    | finished =>
      obtain ⟨hahead, hleft⟩ := fits_of_turn hturn
      rw [hahead, hleft]
      exact .finished hturn

/-- A reader comes to one end only. -/
theorem Drains.eq {values : List (Except Error α)} {left : List (Except Error Bytes)}
    (h : Drains decoder r values left) : values = r.ahead decoder ∧ left = r.left := by
  induction h with
  | finished hturn =>
    obtain ⟨hahead, hleft⟩ := fits_of_turn hturn
    exact ⟨hahead.symm, hleft.symm⟩
  | again hturn _ ih =>
    obtain ⟨-, hahead, hleft⟩ := fits_of_turn hturn
    exact ⟨ih.1.trans hahead.symm, ih.2.trans hleft.symm⟩
  | yields hturn _ ih =>
    obtain ⟨-, hahead, hleft⟩ := fits_of_turn hturn
    rw [hahead, ← ih.1]
    exact ⟨rfl, ih.2.trans hleft.symm⟩

end Reader

/-! ## Every way to read a body -/

/-- The values of a body are those of the lines of its text, whatever its chunks are, and the failure that breaks it
off comes last; a reader hands over the same values and takes no item behind the failure. -/
theorem values_of_lines (decoder : Json.Decoder α) (items : List (Except Error Bytes)) :
    (∀ values, values = read decoder items ↔ Framed decoder (received items) (failure? items) values) ∧
      (∀ values left, (Reader.start items).Drains decoder values left ↔
        Framed decoder (received items) (failure? items) values ∧ left = unread items) ∧
      ∀ (chunks : List Bytes) values, values = read decoder (chunks.map .ok) ↔
        Framed decoder chunks.flatten none values := by
  refine ⟨fun values => ?_, fun values left => ⟨fun h => ?_, ?_⟩, fun chunks values => ?_⟩
  · rw [framed_iff, read_eq]
  · obtain ⟨rfl, rfl⟩ := h.eq
    exact ⟨framed_iff.2 rfl, rfl⟩
  · rintro ⟨hvalues, rfl⟩
    rw [framed_iff.1 hvalues]
    exact Reader.drains decoder (Reader.start items)
  · have hchunks : received (chunks.map .ok) = chunks.flatten ∧ failure? (chunks.map .ok) = none := by
      induction chunks with
      | nil => exact ⟨rfl, rfl⟩
      | cons chunk chunks ih => exact ⟨congrArg (chunk ++ ·) ih.1, ih.2⟩
    rw [framed_iff, read_eq, hchunks.1, hchunks.2]

/-- A line with a carriage return, a blank one, one that two chunks share, one that does not decode, one behind that,
and one that a failure cuts off. -/
theorem values_of_mixed_lines :
    let text := "1\r\n \t\r\n23 \nx\n\n 4\n5"
    let broken : Error := .timeout (.ofSeconds 1)
    let values : List (Except Error Json) :=
      [.ok (.integer 1), .ok (.integer 23), .error (.json .malformed), .ok (.integer 4), .error broken]
    let items : List (Except Error Bytes) :=
      ["1\r\n \t\r\n2", "3 \nx", "", "\n\n 4\n5"].map (fun chunk => .ok (Bytes.ofText chunk)) ++
        [.error broken, .ok (Bytes.ofText "6\n")]
    read .int64 items = values ∧ Framed .int64 (Bytes.ofText text) (some broken) values ∧
      (Reader.start items).Drains .int64 values [.ok (Bytes.ofText "6\n")] := by
  intro text broken values items
  have hread : values = read .int64 items := by rfl
  have htext : received items = Bytes.ofText text := by decide +kernel
  obtain ⟨hvalues, hdrains, -⟩ := values_of_lines .int64 items
  have hframed := (hvalues values).1 hread
  exact ⟨hread.symm, htext ▸ hframed, (hdrains values _).2 ⟨hframed, rfl⟩⟩

end Ndjson

/-! ## The stream of a method -/

namespace Method

open ResilientClient.Fiber

variable {ε β : Type} {m : Method ε} {started t t' : Instant} {s s' : World ε} {ws : List (Write (World ε))}
  {body : BodyStream}

/-- What a stream hands over, without its waits. -/
def arrivals (body : BodyStream) : List (Except Error Bytes) :=
  body.filterMap fun item => match item with
    | .chunk bytes => some (.ok bytes)
    | .failure e => some (.error e)
    | .pause _ => none

theorem takeUpTo_append (limit : Option Nat) (values later : List β) :
    (takeUpTo limit (values ++ later)).1 =
      (takeUpTo limit values).1 ++ (takeUpTo (takeUpTo limit values).2 later).1 := by
  cases limit with
  | none => rfl
  | some n => exact List.take_append

/-- Behind an unfinished line, a method hands over the values of the lines that end in its response. -/
theorem values_of_deliverLines {decoder : Json.Decoder β} {line : Bytes} {limit : Option Nat}
    {values : List (Except Error β)}
    (h : Ends (m.deliverLines decoder started line limit body) t s ws values t' s') :
    values = (takeUpTo limit (Ndjson.readBehind decoder line (arrivals body))).1 := by
  fun_induction m.deliverLines decoder started line limit body generalizing t t' s s' ws values with
  | case1 => exact (ends_done.1 h).2.1
  | case2 => exact (ends_done.1 h).2.1
  | case3 line limit d rest _ ih =>
    obtain ⟨us, _, t₁, s₁, vs, -, -, hrest⟩ := (ends_andThen _ _).1 h
    exact ih hrest
  | case4 line limit bytes rest _ ih =>
    obtain ⟨us, _, t₁, s₁, vs, -, -, hrest⟩ := (ends_andThen _ _).1 h
    obtain ⟨us', later, t₂, s₂, vs', -, hlater, hdone⟩ := (ends_andThen _ _).1 hrest
    obtain ⟨-, rfl, -, -⟩ := ends_done.1 hdone
    rw [ih _ _ hlater]
    exact (takeUpTo_append _ _ _).symm
  | case5 line limit e rest hsome =>
    obtain ⟨us, _, t₁, s₁, vs, -, -, hdone⟩ := (ends_andThen _ _).1 h
    obtain ⟨-, rfl, -, -⟩ := ends_done.1 hdone
    cases limit with
    | none => rfl
    | some n =>
      cases n with
      | zero => exact absurd rfl hsome
      | succ n => simp [takeUpTo, arrivals, Ndjson.readBehind]

/-- A method hands over the values of the lines of its response, up to the limit, and the failure that breaks the
response off. -/
theorem values_of_invokeNdjson {decoder : Json.Decoder β} {args : List Argument} {limit : Option Nat}
    {values : List (Except Error β)} (h : Ends (m.invokeNdjson decoder args limit) t s ws values t' s') :
    (limit = some 0 ∧ values = []) ∨ ∃ us r t₁ s₁ vs, ws = us ++ vs ∧ Ends (m.dispatch args) t s us r t₁ s₁ ∧
      ∃ all, Ndjson.Framed decoder (Ndjson.received (arrivals (itemsOf r)))
          (Ndjson.failure? (arrivals (itemsOf r))) all ∧
        values = (takeUpTo limit all).1 := by
  unfold invokeNdjson at h
  split at h
  · rename_i hlimit
    exact .inl ⟨hlimit, (ends_done.1 h).2.1⟩
  · obtain ⟨us, r, t₁, s₁, vs, rfl, hdispatch, hdeliver⟩ := ends_startStream.1 h
    exact .inr ⟨us, r, t₁, s₁, vs, rfl, hdispatch, _, Ndjson.framed_iff.2 (Ndjson.read_eq decoder _),
      values_of_deliverLines hdeliver⟩

end Method

end ResilientClient
