import Mathlib.Logic.Relation
import Ts3Video.Cor.Resume
import Ts3Video.Library.CheckedMemory
import Ts3Video.Library.Fuel
import Ts3Video.Library.Runs

/-!
# The parser makes progress

A call of the parser walks over its input with a pointer and a number of read bytes. Some iterations consume
nothing, but each of them gets closer to the end in the lexicographic order of the bytes that are left and the
state. So the loop ends, for every parser that earlier calls have left behind, and never reads behind the input.
-/

namespace Ts3Video.CorParser

open CheckedMemory

variable {σ : Type*}

/-- The variables of a call: the parser with its object, the pointer into the input and the number of bytes
that were read. -/
structure Locals (σ : Type*) where
  parser : CorParser
  object : σ
  p : ℕ
  readBytes : ℕ

section Source

variable (settings : CorParserSettings σ) (data : List UInt8) (length : ℕ)

/-- Hand out the bytes of the body that are there. -/
def bodyData (s : Locals σ) : Option (Locals σ) :=
  if s.parser.state = .bodyData then
    s.parser.request.bind fun request =>
    request.length.bind fun requestLength =>
      if s.parser.requestBodyBytesRead < requestLength.toNat then
        let lengthLeft := length - s.readBytes
        let requestBodyDataLeft := requestLength.toNat - s.parser.requestBodyBytesRead
        let len := if lengthLeft > requestBodyDataLeft then requestBodyDataLeft else lengthLeft
        (read data s.p len).bind fun bytes =>
          some
            { parser := { s.parser with requestBodyBytesRead := s.parser.requestBodyBytesRead + len }
              object := executeDataCallback settings.onFrameBodyData s.parser bytes s.object
              p := s.p + len
              readBytes := s.readBytes + len }
      else some s
  else some s

/-- End the frame once its body is complete. -/
def bodyDataEnd (s : Locals σ) : Option (Locals σ) :=
  if s.parser.state = .bodyData then
    s.parser.request.bind fun request =>
    request.length.bind fun _ =>
      let ended := endRequest settings s.parser s.object
      some { s with parser := ended.1, object := ended.2 }
  else some s

/-- One turn of the loop of `cor_parser_parse`: check its condition and run its body, which may return. The
memory of the frame and the input are accessed only where they exist and were written. -/
def turn (s : Locals σ) : Option (Locals σ ⊕ Locals σ) :=
  if s.readBytes < length then
    if s.parser.state = .none then
      let begun := beginRequest settings s.parser s.object
      some (.inl { s with parser := begun.1, object := begun.2 })
    else
      match headerField s.parser.state with
      | some field =>
        if length - s.readBytes < field.fieldSize then some (.inr s)
        else
          s.parser.request.bind fun _ =>
          (read data s.p field.fieldSize).bind fun bytes =>
            let stored := readField settings field s.parser s.object bytes
            some (.inl ⟨stored.1, stored.2, s.p + field.fieldSize, s.readBytes + field.fieldSize⟩)
      | none =>
        (bodyData settings data length s).bind fun s =>
        (bodyDataEnd settings s).bind fun s => some (.inl s)
  else some (.inr s)

/-- `cor_parser_parse` with a bound on the turns of its loop: the parser with its object and the number of
bytes that were read. -/
def parseWithin (turns : ℕ) (s : CorParser × σ) : Option ((CorParser × σ) × ℕ) :=
  if length ≤ 0 then some (s, 0)
  else (Fuel.whileLoop (turn settings data length) turns ⟨s.1, s.2, 0, 0⟩).map fun last =>
    ((last.parser, last.object), last.readBytes)

end Source

/-- A call of the parser: its callbacks, its input, and a bound on the turns of its loop. -/
structure Call (σ : Type*) where
  settings : CorParserSettings σ
  data : List UInt8
  turns : ℕ

/-- Run a call. -/
def call (s : CorParser × σ) (c : Call σ) : Option ((CorParser × σ) × List ℕ) :=
  (parseWithin c.settings c.data c.data.length c.turns s).map fun result => (result.1, [result.2])

variable {settings : CorParserSettings σ} {data : List UInt8} {s : Locals σ}

/-- The variables of a call that has left some bytes of its input. -/
def leaving (data : List UInt8) (x : (CorParser × σ) × List UInt8) : Locals σ :=
  ⟨x.1.1, x.1.2, data.length - x.2.length, data.length - x.2.length⟩

/-- Behind the header of a frame the length of its body was read. -/
def LengthRead (parser : CorParser) : Prop :=
  parser.state = .bodyData → ∃ request length, parser.request = some request ∧ request.length = some length

/-- In a call the parser is well-formed and the pointer is as far inside of the input as bytes were read. -/
structure Inside (data : List UInt8) (s : Locals σ) : Prop where
  valid : Valid (s.parser, s.object)
  lengthRead : LengthRead s.parser
  p_eq : s.p = s.readBytes
  readBytes_le : s.readBytes ≤ data.length

/-- A step that consumes nothing changes only the parser and its object. -/
theorem Inside.leaving_drop (h : Inside data s) (x : CorParser × σ) :
    leaving data (x, data.drop s.readBytes) = { s with parser := x.1, object := x.2 } := by
  have hread : data.length - (data.drop s.readBytes).length = s.readBytes := by
    rw [List.length_drop, Nat.sub_sub_self h.readBytes_le]
  rw [leaving, hread, h.p_eq]

/-- The bytes that are left and those that were read are the input. -/
theorem Inside.drop_leaving {x : (CorParser × σ) × List UInt8} (h : x.2 <:+ data) :
    data.drop (leaving data x).readBytes = x.2 := (List.suffix_iff_eq_drop.mp h).symm

/-- Bytes that are left can be read. -/
theorem Inside.read_eq (h : Inside data s) {count : ℕ} (hcount : count ≤ (data.drop s.readBytes).length) :
    read data s.p count = some ((data.drop s.readBytes).take count) := by
  rw [List.length_drop] at hcount
  have hle := h.readBytes_le
  rw [h.p_eq, read_of_le (by omega)]

/-- The body is handed out from the bytes that are left. -/
theorem Inside.bodyData_eq (h : Inside data s) (hstate : s.parser.state = .bodyData) :
    bodyData settings data data.length s =
      some (leaving data (readBody settings s.parser s.object (data.drop s.readBytes))) := by
  obtain ⟨request, length, hrequest, hlength⟩ := h.lengthRead hstate
  have hrequestLength : s.parser.requestLength = length.toNat := by
    rw [requestLength, hrequest, Option.bind_some, hlength]
    rfl
  rw [bodyData, if_pos hstate, hrequest, Option.bind_some, hlength, Option.bind_some, readBody, hrequestLength,
    List.length_drop]
  by_cases hlt : s.parser.requestBodyBytesRead < length.toNat
  · rw [if_pos hlt, if_pos ⟨hstate, hlt⟩]
    simp only
    generalize hlen : (if data.length - s.readBytes > length.toNat - s.parser.requestBodyBytesRead
      then length.toNat - s.parser.requestBodyBytesRead else data.length - s.readBytes) = len
    have hle : len ≤ (data.drop s.readBytes).length := by
      rw [List.length_drop, ← hlen]
      split <;> omega
    rw [h.read_eq hle, Option.bind_some, leaving, List.length_drop, List.length_drop]
    rw [List.length_drop] at hle
    have hp := h.p_eq
    have hread := h.readBytes_le
    congr 2 <;> omega
  · rw [if_neg hlt, if_neg fun hboth => hlt hboth.2, h.leaving_drop (s.parser, s.object)]

/-- A frame ends with the last byte of its body. -/
theorem bodyDataEnd_eq (h : LengthRead s.parser) :
    bodyDataEnd settings s =
      some { s with
        parser := (endRequest settings s.parser s.object).1
        object := (endRequest settings s.parser s.object).2 } := by
  unfold bodyDataEnd
  split
  · next hstate =>
    obtain ⟨request, length, hrequest, hlength⟩ := h hstate
    rw [hrequest, Option.bind_some, hlength, Option.bind_some]
  · next hstate => rw [endRequest, if_neg fun hboth => hstate hboth.1]

/-- Handing out the body changes neither the state nor the header. -/
theorem readBody_header (settings : CorParserSettings σ) (parser : CorParser) (object : σ) (p : List UInt8) :
    (readBody settings parser object p).1.1.state = parser.state ∧
      (readBody settings parser object p).1.1.request = parser.request := by
  unfold readBody
  split
  · exact ⟨rfl, rfl⟩
  · exact ⟨rfl, rfl⟩

/-- A field is stored from its own bytes. -/
theorem readField_take {field : HeaderField} {state : State} (hfield : headerField state = some field)
    (parser : CorParser) (object : σ) {p : List UInt8} (hsize : field.fieldSize ≤ p.length) :
    readField settings field parser object (p.take field.fieldSize) =
      readField settings field parser object p := by
  have hstore : field.store (p.take field.fieldSize) = field.store p := by
    have happend := (headerField_spec hfield).2.1 (p.take field.fieldSize) (p.drop field.fieldSize)
      (List.length_take_of_le hsize).ge
    rwa [List.take_append_drop, eq_comm] at happend
  rw [readField, readField, hstore]

/-- The loop returns where everything was read. -/
theorem turn_of_read (h : data.drop s.readBytes = []) :
    turn settings data data.length s = some (.inr s) := by
  rw [turn, if_neg (Nat.not_lt.mpr (List.drop_eq_nil_iff.mp h))]

/-- The loop returns inside of a field. -/
theorem Inside.turn_of_none (h : Inside data s)
    (hstep : iterate settings (s.parser, s.object) (data.drop s.readBytes) = none) :
    turn settings data data.length s = some (.inr s) := by
  obtain ⟨field, hfield, hsize⟩ := iterate_eq_none h.valid hstep
  have hfield' : headerField s.parser.state = some field := hfield
  rw [List.length_drop] at hsize
  unfold turn
  split
  · rw [if_neg (state_ne_none_of_headerField hfield'), hfield']
    exact if_pos hsize
  · rfl

/-- A turn behind the header hands out the body and ends the frame. -/
theorem Inside.turn_of_bodyData (h : Inside data s) (hlt : s.readBytes < data.length)
    (hstate : s.parser.state = .bodyData) :
    turn settings data data.length s =
      let body := readBody settings s.parser s.object (data.drop s.readBytes)
      some (.inl (leaving data (endRequest settings body.1.1 body.1.2, body.2))) := by
  have hheader := readBody_header settings s.parser s.object (data.drop s.readBytes)
  have hlength :
      LengthRead (leaving data (readBody settings s.parser s.object (data.drop s.readBytes))).parser := by
    intro _
    obtain ⟨request, length, hrequest, hlength⟩ := h.lengthRead hstate
    exact ⟨request, length, hheader.2.trans hrequest, hlength⟩
  rw [turn, if_pos hlt, hstate, if_neg (by decide), h.bodyData_eq hstate]
  change (bodyDataEnd settings _).bind _ = _
  rw [bodyDataEnd_eq hlength]
  rfl

/-- A turn inside of the header stores a field that is there. -/
theorem Inside.turn_of_field (h : Inside data s) {field : HeaderField}
    (hfield : headerField s.parser.state = some field) (hsize : field.fieldSize ≤ (data.drop s.readBytes).length) :
    turn settings data data.length s =
      some (.inl (leaving data (readField settings field s.parser s.object (data.drop s.readBytes),
        (data.drop s.readBytes).drop field.fieldSize))) := by
  have hpositive := (headerField_spec hfield).1
  have hsize' : field.fieldSize ≤ data.length - s.readBytes := by rwa [List.length_drop] at hsize
  have hlt : s.readBytes < data.length := by omega
  obtain ⟨request, hrequest⟩ := Option.isSome_iff_exists.mp (h.valid.of_headerField hfield).2
  have hrequest' : s.parser.request = some request := hrequest
  rw [turn, if_pos hlt, if_neg (state_ne_none_of_headerField hfield), hfield]
  simp only
  rw [if_neg (Nat.not_lt.mpr hsize'), hrequest', Option.bind_some, h.read_eq hsize, Option.bind_some,
    readField_take hfield _ _ hsize, leaving, List.length_drop, List.length_drop]
  have hp := h.p_eq
  congr 3 <;> omega

/-- A turn that does not return is an iteration over the bytes that are left. -/
theorem Inside.turn_of_some (h : Inside data s) (hleft : data.drop s.readBytes ≠ [])
    {next : (CorParser × σ) × List UInt8}
    (hstep : iterate settings (s.parser, s.object) (data.drop s.readBytes) = some next) :
    turn settings data data.length s = some (.inl (leaving data next)) := by
  have hlt : s.readBytes < data.length := Nat.lt_of_not_le fun hle => hleft (List.drop_eq_nil_iff.mpr hle)
  rcases h.valid.cases with hnone | hdata | ⟨field, hfield⟩
  · rw [iterate_of_none hnone, Option.some.injEq] at hstep
    rw [turn, if_pos hlt, if_pos hnone, ← hstep, h.leaving_drop]
  · rw [iterate_of_bodyData hdata, Option.some.injEq] at hstep
    rw [h.turn_of_bodyData hlt hdata, ← hstep]
  · rcases Nat.lt_or_ge (data.drop s.readBytes).length field.fieldSize with hcut | hsize
    · rw [iterate_of_cut_field hfield hcut] at hstep
      contradiction
    · rw [iterate_of_field hfield hsize, Option.some.injEq] at hstep
      rw [h.turn_of_field hfield hsize, ← hstep]

/-- No field is longer than 4 bytes, and the one before the body is its length. -/
theorem headerField_length {state : State} {field : HeaderField} (h : headerField state = some field) :
    field.fieldSize ≤ 4 ∧
      (field.nextState = .bodyData → ∀ p request, ∃ length, (field.store p request).length = some length) := by
  cases state <;> simp only [headerField, reduceCtorEq, Option.some.injEq] at h
  all_goals
    subst h
    refine ⟨by decide, fun hnext p request => ?_⟩
  case headerBodyLength => exact ⟨_, rfl⟩
  all_goals exact absurd hnext (by decide)

/-- An iteration reads the length before the body. -/
theorem lengthRead_iterate {s s' : CorParser × σ} {p rest : List UInt8} (hs : Valid s) (h : LengthRead s.1)
    (hstep : iterate settings s p = some (s', rest)) : LengthRead s'.1 := by
  rcases iterate_cases hs hstep with ⟨-, rfl, -⟩ | ⟨field, hfield, -, rfl, -⟩ | ⟨-, -, rfl, -⟩ |
    ⟨-, -, rfl, -⟩
  · intro hstate
    contradiction
  · obtain ⟨request, hrequest⟩ := Option.isSome_iff_exists.mp (hs.of_headerField hfield).2
    rw [readField_fst]
    intro hstate
    obtain ⟨length, hlength⟩ := (headerField_length hfield).2 hstate p request
    exact ⟨field.store p request, length, congrArg (Option.map _) hrequest, hlength⟩
  · intro hstate
    contradiction
  · exact h

/-- The call stays inside of its input. -/
theorem Inside.next (h : Inside data s) {x : CorParser × σ} {rest : List UInt8}
    (hstep : iterate settings (s.parser, s.object) (data.drop s.readBytes) = some (x, rest)) :
    Inside data (leaving data (x, rest)) where
  valid := valid_iterate h.valid hstep
  lengthRead := lengthRead_iterate h.valid h.lengthRead hstep
  p_eq := rfl
  readBytes_le := Nat.sub_le _ _

/-- The bytes that are left are too few for the next field, or there are none. -/
def WaitsForField (data : List UInt8) (parser : CorParser) (readBytes : ℕ) : Prop :=
  readBytes = data.length ∨
    ∃ field, headerField parser.state = some field ∧ data.length - readBytes < field.fieldSize

/-- What a turn inside of the input can do. -/
theorem Inside.turn_cases (settings : CorParserSettings σ) (h : Inside data s) :
    (turn settings data data.length s = some (.inr s) ∧ WaitsForField data s.parser s.readBytes) ∨
    ∃ next, turn settings data data.length s = some (.inl (leaving data next)) ∧
      iterate settings (s.parser, s.object) (data.drop s.readBytes) = some next ∧
      data.drop s.readBytes ≠ [] := by
  by_cases hleft : data.drop s.readBytes = []
  · exact .inl ⟨turn_of_read hleft, .inl (Nat.le_antisymm h.readBytes_le (List.drop_eq_nil_iff.mp hleft))⟩
  · cases hstep : iterate settings (s.parser, s.object) (data.drop s.readBytes) with
    | none =>
      obtain ⟨field, hfield, hsize⟩ := iterate_eq_none h.valid hstep
      rw [List.length_drop] at hsize
      exact .inl ⟨h.turn_of_none hstep, .inr ⟨field, hfield, hsize⟩⟩
    | some next => exact .inr ⟨next, h.turn_of_some hleft hstep, rfl, hleft⟩

/-- The bytes that are left behind an iteration. -/
theorem Inside.drop_next (h : Inside data s) {next : (CorParser × σ) × List UInt8}
    (hstep : iterate settings (s.parser, s.object) (data.drop s.readBytes) = some next) :
    data.drop (leaving data next).readBytes = next.2 :=
  drop_leaving ((suffix_iterate h.valid hstep).trans (List.drop_suffix _ _))

/-- The lexicographic order of the bytes that are left and the state, as a number. -/
def Locals.rank (data : List UInt8) (s : Locals σ) : ℕ :=
  CorParser.rank (s.parser, s.object) (data.drop s.readBytes)

/-- An iteration gets closer to the end. -/
theorem Inside.rank_next (h : Inside data s) (hleft : data.drop s.readBytes ≠ [])
    {next : (CorParser × σ) × List UInt8}
    (hstep : iterate settings (s.parser, s.object) (data.drop s.readBytes) = some next) :
    (leaving data next).rank data < s.rank data := by
  have hrank := rank_iterate h.valid hleft hstep
  rwa [Locals.rank, Locals.rank, h.drop_next hstep]

/-- The loop over the bytes that are left ends where the next field is not there. -/
theorem WaitsForField.loop_eq (h : WaitsForField data s.parser s.readBytes) (fuel : ℕ) :
    Resumable.loop (iterate settings) fuel (s.parser, s.object) (data.drop s.readBytes) =
      ((s.parser, s.object), data.drop s.readBytes) := by
  rcases h with hall | ⟨field, hfield, hsize⟩
  · rw [hall, List.drop_length, Resumable.loop_nil]
  · exact Resumable.loop_of_none (iterate_of_cut_field hfield (by rwa [List.length_drop])) fuel

/-- What a loop has left where it returns, which is the same for the loop over the bytes that are left. -/
structure EndsWith (settings : CorParserSettings σ) (data : List UInt8) (s r : Locals σ) : Prop where
  inside : Inside data r
  waits : WaitsForField data r.parser r.readBytes
  loop_eq : ∀ fuel ≥ s.rank data,
    Resumable.loop (iterate settings) fuel (s.parser, s.object) (data.drop s.readBytes) =
      ((r.parser, r.object), data.drop r.readBytes)

/-- An iteration comes before the end. -/
theorem EndsWith.back {next : (CorParser × σ) × List UInt8} {r : Locals σ}
    (h : EndsWith settings data (leaving data next) r) (hs : Inside data s) (hleft : data.drop s.readBytes ≠ [])
    (hstep : iterate settings (s.parser, s.object) (data.drop s.readBytes) = some next) :
    EndsWith settings data s r where
  inside := h.inside
  waits := h.waits
  loop_eq := by
    intro fuel hfuel
    have hrank := hs.rank_next hleft hstep
    obtain ⟨fuel, rfl⟩ : ∃ n, fuel = n + 1 := ⟨fuel - 1, by omega⟩
    rw [Resumable.loop_of_some hleft hstep, ← h.loop_eq fuel (by omega), hs.drop_next hstep]
    rfl

/-- The loop ends. -/
theorem Inside.exists_whileLoop (settings : CorParserSettings σ) (h : Inside data s) {turns : ℕ}
    (hturns : s.rank data < turns) :
    ∃ r, Fuel.whileLoop (turn settings data data.length) turns s = some r ∧ EndsWith settings data s r := by
  refine Fuel.whileLoop_of_variant (P := Inside data) (Locals.rank data) (fun s hs => ?_) h hturns
  rcases hs.turn_cases settings with ⟨hturn, hwaits⟩ | ⟨next, hturn, hstep, hleft⟩
  · exact .inl ⟨s, hturn, hs, hwaits, fun fuel _ => hwaits.loop_eq fuel⟩
  · exact .inr ⟨leaving data next, hturn, hs.next hstep, hs.rank_next hleft hstep,
      fun r hr => hr.back hs hleft hstep⟩

/-- A call starts inside of its input. -/
theorem inside_start {s : CorParser × σ} (hvalid : Valid s) (hlength : LengthRead s.1) (data : List UInt8) :
    Inside data ⟨s.1, s.2, 0, 0⟩ :=
  ⟨hvalid, hlength, rfl, Nat.zero_le _⟩

/-- A call takes few turns. -/
theorem rank_start_lt (s : CorParser × σ) (data : List UInt8) :
    Locals.rank data ⟨s.1, s.2, 0, 0⟩ < 3 * data.length + 3 :=
  Nat.lt_succ_of_le (Nat.add_le_add_left (State.weight_le s.1.state) _)

/-- A call with a larger bound gives the same result. -/
theorem parseWithin_mono {s : CorParser × σ} {length turns more : ℕ} {result : (CorParser × σ) × ℕ}
    (h : parseWithin settings data length turns s = some result) (hle : turns ≤ more) :
    parseWithin settings data length more s = some result := by
  unfold parseWithin at h ⊢
  split
  · next hempty => rwa [if_pos hempty] at h
  · next hempty =>
    rw [if_neg hempty] at h
    obtain ⟨last, hloop, hlast⟩ := Option.map_eq_some_iff.mp h
    rw [Fuel.whileLoop_mono hloop hle, Option.map_some, hlast]

/-- A call returns with what the loop over the bytes that are left gives. -/
theorem exists_parseWithin (settings : CorParserSettings σ) {s : CorParser × σ} (hvalid : Valid s)
    (hlength : LengthRead s.1) (data : List UInt8) :
    ∃ s' readBytes, parseWithin settings data data.length (3 * data.length + 3) s = some (s', readBytes) ∧
      parse settings s data = (s', readBytes) ∧ readBytes ≤ data.length ∧
      WaitsForField data s'.1 readBytes ∧ Valid s' ∧ LengthRead s'.1 := by
  obtain ⟨r, hloop, hr⟩ := (inside_start hvalid hlength data).exists_whileLoop settings (rank_start_lt s data)
  have hle := hr.inside.readBytes_le
  have hrun := hr.loop_eq (3 * data.length + 2) (Nat.le_of_lt_succ (rank_start_lt s data))
  rw [List.drop_zero] at hrun
  have hparse : parse settings s data = ((r.parser, r.object), r.readBytes) := by
    rw [parse, hrun, List.length_drop, Nat.sub_sub_self hle]
  refine ⟨(r.parser, r.object), r.readBytes, ?_, hparse, hle, hr.waits, hr.inside.valid, hr.inside.lengthRead⟩
  unfold parseWithin
  split
  · next hempty =>
    rw [List.length_eq_zero_iff.mp (Nat.le_zero.mp hempty), parse, Resumable.loop_nil] at hparse
    exact congrArg some hparse
  · rw [hloop, Option.map_some]

/-- The parser is well-formed behind any calls. -/
theorem valid_of_reachable {init : σ} {s : CorParser × σ} (h : Runs.Reachable call ({}, init) s) :
    Valid s ∧ LengthRead s.1 := by
  refine h.invariant (P := fun s => Valid s ∧ LengthRead s.1) ⟨valid_idle init, fun hstate => ?_⟩ ?_
  · contradiction
  · intro s c s' out hs hcall
    obtain ⟨result, hparse, hresult⟩ := Option.map_eq_some_iff.mp hcall
    obtain ⟨t, n, hreturns, -, -, -, ht⟩ := exists_parseWithin c.settings hs.1 hs.2 c.data
    have hsame := (parseWithin_mono hparse (Nat.le_max_left _ _)).symm.trans
      (parseWithin_mono hreturns (Nat.le_max_right c.turns _))
    rw [Option.some.injEq] at hsame
    rw [Prod.mk.injEq] at hresult
    rw [← hresult.1, hsame]
    exact ht

/-- No more of a body is read than its header tells, and there is a frame just if one has begun. -/
structure Consistent (parser : CorParser) : Prop where
  body : parser.state = .bodyData → ∃ request length, parser.request = some request ∧
    request.length = some length ∧ parser.requestBodyBytesRead ≤ length.toNat
  other : parser.state ≠ .bodyData → parser.requestBodyBytesRead = 0
  request_iff : parser.request.isSome ↔ parser.state ≠ .none

/-- A well-formed parser is consistent. -/
theorem Valid.consistent {s : CorParser × σ} (h : Valid s) (hlength : LengthRead s.1) : Consistent s.1 := by
  rcases h.cases with hnone | hdata | ⟨field, hfield⟩
  · rw [h.of_none hnone]
    exact ⟨fun hstate => (nomatch hstate), fun _ => rfl, iff_of_false Bool.false_ne_true fun hne => hne rfl⟩
  · obtain ⟨request, length, hrequest, hsome⟩ := hlength hdata
    have hread := h.of_bodyData hdata
    rw [requestLength, hrequest, Option.bind_some, hsome] at hread
    refine ⟨fun _ => ⟨request, length, hrequest, hsome, hread⟩, fun hne => absurd hdata hne, ?_⟩
    rw [hrequest, hdata]
    exact iff_of_true rfl (by decide)
  · obtain ⟨hread, hrequest⟩ := h.of_headerField hfield
    refine ⟨fun hdata => ?_, fun _ => hread, iff_of_true hrequest (state_ne_none_of_headerField hfield)⟩
    rw [hdata] at hfield
    contradiction

/-- One turn goes on with the next one. -/
def GoesOn (settings : CorParserSettings σ) (data : List UInt8) (s s' : Locals σ) : Prop :=
  turn settings data data.length s = some (.inl s')

/-- Every turn of a call is inside of its input. -/
theorem Inside.of_goesOn (h : Inside data s) {s' : Locals σ}
    (hturns : Relation.ReflTransGen (GoesOn settings data) s s') : Inside data s' := by
  induction hturns with
  | refl => exact h
  | tail _ hgoes hinside =>
    rcases hinside.turn_cases settings with ⟨hturn, -⟩ | ⟨next, hturn, hstep, -⟩
    · rw [GoesOn, hturn, Option.some.injEq] at hgoes
      cases hgoes
    · rw [GoesOn, hturn, Option.some.injEq, Sum.inl.injEq] at hgoes
      exact hgoes ▸ hinside.next hstep

/-- No turn inside of the input is undefined. -/
theorem Inside.turn_isSome (settings : CorParserSettings σ) (h : Inside data s) :
    (turn settings data data.length s).isSome := by
  rcases h.turn_cases settings with ⟨hturn, -⟩ | ⟨next, hturn, -⟩
  · rw [hturn]
    rfl
  · rw [hturn]
    rfl

/-- Few bytes are left for the next field. -/
theorem WaitsForField.left_le {parser : CorParser} {readBytes : ℕ} (h : WaitsForField data parser readBytes) :
    data.length - readBytes ≤ 3 := by
  rcases h with hall | ⟨field, hfield, hsize⟩
  · omega
  · have hle := (headerField_length hfield).1
    omega

/-- A call of a parser that any calls have left behind returns after finitely many turns. It leaves only bytes
that are too few for the next field, and at most 3 of them. All turns are defined, so nothing is read behind the
input or from a frame that does not exist, and the parser is consistent before and after each of them. -/
theorem parse_progress {init : σ} {s : CorParser × σ} (h : Runs.Reachable call ({}, init) s)
    (settings : CorParserSettings σ) (data : List UInt8) :
    (∃ s' readBytes, (∀ turns ≥ 3 * data.length + 3,
        parseWithin settings data data.length turns s = some (s', readBytes)) ∧
      readBytes ≤ data.length ∧ WaitsForField data s'.1 readBytes ∧ data.length - readBytes ≤ 3 ∧
      Consistent s'.1) ∧
    ∀ l, Relation.ReflTransGen (GoesOn settings data) ⟨s.1, s.2, 0, 0⟩ l →
      (turn settings data data.length l).isSome ∧ l.p = l.readBytes ∧ l.readBytes ≤ data.length ∧
        Consistent l.parser := by
  obtain ⟨hvalid, hlength⟩ := valid_of_reachable h
  constructor
  · obtain ⟨s', readBytes, hparse, -, hle, hwaits, hvalid', hlength'⟩ :=
      exists_parseWithin settings hvalid hlength data
    exact ⟨s', readBytes, fun turns hturns => parseWithin_mono hparse hturns, hle, hwaits, hwaits.left_le,
      hvalid'.consistent hlength'⟩
  · intro l hturns
    have hinside := (inside_start hvalid hlength data).of_goesOn hturns
    exact ⟨hinside.turn_isSome settings, hinside.p_eq, hinside.readBytes_le,
      hinside.valid.consistent hinside.lengthRead⟩

/-- A call that has read the version of a frame leaves a byte of its type, with which another call starts. -/
theorem parse_progress_cutHeader :
    Runs.Reachable call (({} : CorParser), ())
        (({ state := .headerType, request := some { version := some 1 } } : CorParser), ()) ∧
      ∃ s' readBytes, (∀ turns ≥ 15, parseWithin {} [0, 2, 0, 0] 4 turns
          (({ state := .headerType, request := some { version := some 1 } } : CorParser), ()) =
        some (s', readBytes)) ∧ 4 - readBytes ≤ 3 ∧ Consistent s'.1 := by
  have hreach : Runs.Reachable call (({} : CorParser), ())
      (({ state := .headerType, request := some { version := some 1 } } : CorParser), ()) :=
    ⟨[⟨{}, [0, 1, 0], 12⟩], [2], by decide⟩
  obtain ⟨⟨s', readBytes, hparse, -, -, hleft, hconsistent⟩, -⟩ := parse_progress hreach {} [0, 2, 0, 0]
  exact ⟨hreach, s', readBytes, hparse, hleft, hconsistent⟩

end Ts3Video.CorParser
