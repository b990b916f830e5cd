import Ts3Video.Cor.Parser

/-!
# The parser can be resumed

Every iteration of the parser keeps its state well-formed, gets closer to the end of the input and
does not depend on where the input ends, up to handing out a body in more pieces.
-/

namespace Ts3Video.CorParser

variable {σ : Type*} {settings : CorParserSettings σ}

/-- An idle parser starts a frame and consumes nothing. -/
theorem iterate_of_none {s : CorParser × σ} (h : s.1.state = .none) (p : List UInt8) :
    iterate settings s p = some (beginRequest settings s.1 s.2, p) := by
  rw [iterate, if_pos h]

/-- No field is read while the parser is idle. -/
theorem state_ne_none_of_headerField {state : State} {field : HeaderField}
    (h : headerField state = some field) : state ≠ .none := by
  rintro rfl
  contradiction

/-- A field that is there as a whole is read. -/
theorem iterate_of_field {s : CorParser × σ} {field : HeaderField}
    (h : headerField s.1.state = some field) {p : List UInt8} (hsize : field.fieldSize ≤ p.length) :
    iterate settings s p =
      some (readField settings field s.1 s.2 p, p.drop field.fieldSize) := by
  rw [iterate, if_neg (state_ne_none_of_headerField h), h]
  exact if_neg (Nat.not_lt.mpr hsize)

/-- A field that is cut off waits for more input. -/
theorem iterate_of_cut_field {s : CorParser × σ} {field : HeaderField}
    (h : headerField s.1.state = some field) {p : List UInt8} (hsize : p.length < field.fieldSize) :
    iterate settings s p = none := by
  rw [iterate, if_neg (state_ne_none_of_headerField h), h]
  exact if_pos hsize

/-- The body is handed out up to the end of the input or of the frame. -/
theorem iterate_of_bodyData {s : CorParser × σ} (h : s.1.state = .bodyData) (p : List UInt8) :
    iterate settings s p =
      some (endRequest settings (readBody settings s.1 s.2 p).1.1 (readBody settings s.1 s.2 p).1.2,
        (readBody settings s.1 s.2 p).2) := by
  rw [iterate, h]
  rfl

/-- The states a well-formed parser can be in. -/
theorem Valid.cases {s : CorParser × σ} (h : Valid s) :
    s.1.state = .none ∨ s.1.state = .bodyData ∨
      ∃ field, headerField s.1.state = some field := by
  unfold Valid at h
  cases hstate : s.1.state <;> simp [hstate, headerField] at h ⊢

/-- An idle parser is well-formed. -/
theorem valid_idle (object : σ) : Valid (({} : CorParser), object) := ⟨rfl, rfl⟩

/-- An idle parser is one that was just initialised. -/
theorem Valid.of_none {s : CorParser × σ} (h : Valid s) (hstate : s.1.state = .none) : s.1 = {} := by
  obtain ⟨⟨state, read, request⟩, object⟩ := s
  obtain rfl : state = .none := hstate
  obtain ⟨rfl, rfl⟩ := h
  rfl

/-- No more of the body is read than the header tells. -/
theorem Valid.of_bodyData {s : CorParser × σ} (h : Valid s) (hstate : s.1.state = .bodyData) :
    s.1.requestBodyBytesRead ≤ s.1.requestLength := by
  unfold Valid at h
  rw [hstate] at h
  exact h.1

/-- While a header is read there is a request, and nothing of its body was read. -/
theorem Valid.of_headerField {s : CorParser × σ} (h : Valid s) {field : HeaderField}
    (hfield : headerField s.1.state = some field) :
    s.1.requestBodyBytesRead = 0 ∧ s.1.request.isSome := by
  unfold Valid at h
  cases hstate : s.1.state <;> simp only [hstate, headerField, reduceCtorEq] at h hfield <;>
    exact h.2

/-- Such a parser is well-formed. -/
theorem valid_of_headerField {s : CorParser × σ}
    (hfield : s.1.state ≠ .bodyData ∧ (headerField s.1.state).isSome)
    (hread : s.1.requestBodyBytesRead = 0) (hrequest : s.1.request.isSome) : Valid s := by
  obtain ⟨hbody, hsome⟩ := hfield
  unfold Valid
  cases hstate : s.1.state with
  | none => rw [hstate] at hsome; contradiction
  | bodyData => exact absurd hstate hbody
  | headerBegin | headerEnd => rw [hstate] at hsome; contradiction
  | headerVersion | headerType | headerFlags | headerCorrelationId | headerBodyLength =>
    exact ⟨rfl, hread, hrequest⟩

/-- Behind the header of a frame the parser is well-formed. -/
theorem valid_behind_header (request : CorFrame) (object : σ) :
    Valid (({ state := .bodyData, request := some request } : CorParser), object) :=
  ⟨Nat.zero_le _, rfl⟩

/-- Every field has a positive size and reads only the bytes of that size. The next state is that
of another field or of the body. -/
theorem headerField_spec {state : State} {field : HeaderField}
    (h : headerField state = some field) :
    0 < field.fieldSize ∧
      (∀ p more : List UInt8, field.fieldSize ≤ p.length →
        field.store (p ++ more) = field.store p) ∧
      (field.nextState = .bodyData ∨
        field.nextState ≠ .bodyData ∧ (headerField field.nextState).isSome) := by
  cases state <;> simp only [headerField, reduceCtorEq, Option.some.injEq] at h
  all_goals
    subst h
    refine ⟨by decide, fun p more hsize => ?_, by decide⟩
    simp only [readUInt16, readUInt32, Prod.map_fst, readNumber_append hsize]

/-- The bytes of the body that are still to come. -/
def bodyLeft (parser : CorParser) : ℕ := parser.requestLength - parser.requestBodyBytesRead

/-- The state behind some bytes of the body. -/
def afterBody (settings : CorParserSettings σ) (s : CorParser × σ) (data : List UInt8) :
    CorParser × σ :=
  ({ s.1 with requestBodyBytesRead := s.1.requestBodyBytesRead + data.length },
    if s.1.requestBodyBytesRead < s.1.requestLength then
      executeDataCallback settings.onFrameBodyData s.1 data s.2
    else s.2)

/-- The state behind the last byte of the body of a frame. -/
def afterFrame (settings : CorParserSettings σ) (s : CorParser × σ) (data : List UInt8) :
    CorParser × σ :=
  ({}, executeCallback settings.onFrameEnd (afterBody settings s data).1
    (executeCallback settings.onFrameBodyDataEnd (afterBody settings s data).1
      (afterBody settings s data).2))

/-- Reading the body takes as much as there is and as the frame needs. -/
theorem readBody_eq {s : CorParser × σ} (hstate : s.1.state = .bodyData)
    (hvalid : s.1.requestBodyBytesRead ≤ s.1.requestLength) (p : List UInt8) :
    readBody settings s.1 s.2 p =
      (afterBody settings s (p.take (bodyLeft s.1)), p.drop (bodyLeft s.1)) := by
  unfold readBody afterBody bodyLeft
  by_cases hlt : s.1.requestBodyBytesRead < s.1.requestLength
  · rw [if_pos ⟨hstate, hlt⟩, if_pos hlt, List.length_take]
    by_cases hmore : p.length > s.1.requestLength - s.1.requestBodyBytesRead
    · simp only [if_pos hmore, Nat.min_eq_left (Nat.le_of_lt hmore)]
    · simp only [if_neg hmore, Nat.min_eq_right (Nat.le_of_not_lt hmore), List.take_length,
        List.drop_length, List.take_of_length_le (Nat.le_of_not_lt hmore),
        List.drop_of_length_le (Nat.le_of_not_lt hmore)]
  · have hzero : s.1.requestLength - s.1.requestBodyBytesRead = 0 := by omega
    rw [if_neg (fun h => hlt h.2), if_neg hlt, hzero, List.take_zero, List.drop_zero]
    rfl

/-- A body that is there as a whole ends the frame. -/
theorem iterate_of_whole_body {s : CorParser × σ} (hstate : s.1.state = .bodyData)
    (hvalid : s.1.requestBodyBytesRead ≤ s.1.requestLength) {p : List UInt8}
    (hwhole : bodyLeft s.1 ≤ p.length) :
    iterate settings s p =
      some (afterFrame settings s (p.take (bodyLeft s.1)), p.drop (bodyLeft s.1)) := by
  have hread : (afterBody settings s (p.take (bodyLeft s.1))).1.requestBodyBytesRead =
      s.1.requestLength := by
    simp only [afterBody, List.length_take, Nat.min_eq_left hwhole]
    exact Nat.add_sub_cancel' hvalid
  rw [iterate_of_bodyData hstate, readBody_eq hstate hvalid, endRequest, if_pos ⟨hstate, hread⟩]
  rfl

/-- Of a body that is cut off everything is taken, and the frame goes on. -/
theorem iterate_of_cut_body {s : CorParser × σ} (hstate : s.1.state = .bodyData)
    {p : List UInt8} (hcut : p.length < bodyLeft s.1) :
    iterate settings s p = some (afterBody settings s p, []) := by
  have hlt : s.1.requestBodyBytesRead < s.1.requestLength := by
    unfold bodyLeft at hcut
    omega
  have hread : ¬ ((afterBody settings s p).1.state = .bodyData ∧
      (afterBody settings s p).1.requestBodyBytesRead =
        (afterBody settings s p).1.requestLength) := by
    rintro ⟨-, hread⟩
    change s.1.requestBodyBytesRead + p.length = s.1.requestLength at hread
    unfold bodyLeft at hcut
    omega
  rw [iterate_of_bodyData hstate, readBody_eq hstate (Nat.le_of_lt hlt),
    List.take_of_length_le (Nat.le_of_lt hcut), List.drop_of_length_le (Nat.le_of_lt hcut),
    endRequest, if_neg hread]

/-- The body may be taken in two parts. -/
theorem afterBody_append (hbody : AppendsBody settings) {s : CorParser × σ} {p : List UInt8}
    (hcut : p.length < bodyLeft s.1) (more : List UInt8) :
    afterBody settings s (p ++ more) = afterBody settings (afterBody settings s p) more := by
  unfold bodyLeft at hcut
  have hlt : s.1.requestBodyBytesRead < s.1.requestLength := by omega
  have hlt' : s.1.requestBodyBytesRead + p.length < s.1.requestLength := by omega
  change ({ s.1 with requestBodyBytesRead := s.1.requestBodyBytesRead + (p ++ more).length },
      if s.1.requestBodyBytesRead < s.1.requestLength then
        executeDataCallback settings.onFrameBodyData s.1 (p ++ more) s.2 else s.2) =
    ({ s.1 with requestBodyBytesRead := s.1.requestBodyBytesRead + p.length + more.length },
      if s.1.requestBodyBytesRead + p.length < s.1.requestLength then
        executeDataCallback settings.onFrameBodyData
          { s.1 with requestBodyBytesRead := s.1.requestBodyBytesRead + p.length } more
          (if s.1.requestBodyBytesRead < s.1.requestLength then
            executeDataCallback settings.onFrameBodyData s.1 p s.2 else s.2)
      else if s.1.requestBodyBytesRead < s.1.requestLength then
        executeDataCallback settings.onFrameBodyData s.1 p s.2 else s.2)
  rw [if_pos hlt, if_pos hlt', if_pos hlt, List.length_append, ← Nat.add_assoc]
  exact congrArg _ (hbody _ _ _ _ _)

/-- What an iteration of a well-formed parser can do. -/
theorem iterate_cases {s s' : CorParser × σ} {p rest : List UInt8} (hs : Valid s)
    (hstep : iterate settings s p = some (s', rest)) :
    (s.1.state = .none ∧ s' = beginRequest settings s.1 s.2 ∧ rest = p) ∨
    (∃ field, headerField s.1.state = some field ∧ field.fieldSize ≤ p.length ∧
      s' = readField settings field s.1 s.2 p ∧ rest = p.drop field.fieldSize) ∨
    (s.1.state = .bodyData ∧ bodyLeft s.1 ≤ p.length ∧
      s' = afterFrame settings s (p.take (bodyLeft s.1)) ∧ rest = p.drop (bodyLeft s.1)) ∨
    (s.1.state = .bodyData ∧ p.length < bodyLeft s.1 ∧ s' = afterBody settings s p ∧ rest = []) := by
  rcases hs.cases with hnone | hdata | ⟨field, hfield⟩
  · rw [iterate_of_none hnone, Option.some.injEq, Prod.mk.injEq] at hstep
    exact Or.inl ⟨hnone, hstep.1.symm, hstep.2.symm⟩
  · rcases Nat.lt_or_ge p.length (bodyLeft s.1) with hcut | hwhole
    · rw [iterate_of_cut_body hdata hcut, Option.some.injEq, Prod.mk.injEq] at hstep
      exact Or.inr (Or.inr (Or.inr ⟨hdata, hcut, hstep.1.symm, hstep.2.symm⟩))
    · rw [iterate_of_whole_body hdata (hs.of_bodyData hdata) hwhole, Option.some.injEq,
        Prod.mk.injEq] at hstep
      exact Or.inr (Or.inr (Or.inl ⟨hdata, hwhole, hstep.1.symm, hstep.2.symm⟩))
  · rcases Nat.lt_or_ge p.length field.fieldSize with hcut | hsize
    · rw [iterate_of_cut_field hfield hcut] at hstep
      contradiction
    · rw [iterate_of_field hfield hsize, Option.some.injEq, Prod.mk.injEq] at hstep
      exact Or.inr (Or.inl ⟨field, hfield, hsize, hstep.1.symm, hstep.2.symm⟩)

/-- A well-formed parser waits for input only inside of a header field. -/
theorem iterate_eq_none {s : CorParser × σ} {p : List UInt8} (hs : Valid s)
    (hstep : iterate settings s p = none) :
    ∃ field, headerField s.1.state = some field ∧ p.length < field.fieldSize := by
  rcases hs.cases with hnone | hdata | ⟨field, hfield⟩
  · rw [iterate_of_none hnone] at hstep
    contradiction
  · rw [iterate_of_bodyData hdata] at hstep
    contradiction
  · refine ⟨field, hfield, Nat.lt_of_not_le fun hsize => ?_⟩
    rw [iterate_of_field hfield hsize] at hstep
    contradiction

/-- The parser behind a header field. -/
theorem readField_fst (field : HeaderField) (s : CorParser × σ) (p : List UInt8) :
    (readField settings field s.1 s.2 p).1 =
      { s.1 with state := field.nextState, request := s.1.request.map (field.store p) } := by
  unfold readField
  split <;> rfl

/-- A parser stays well-formed. -/
theorem valid_iterate {s s' : CorParser × σ} {p rest : List UInt8} (hs : Valid s)
    (hstep : iterate settings s p = some (s', rest)) : Valid s' := by
  rcases iterate_cases hs hstep with ⟨hnone, rfl, -⟩ | ⟨field, hfield, -, rfl, -⟩ |
    ⟨-, -, rfl, -⟩ | ⟨hdata, hcut, rfl, -⟩
  · unfold Valid at hs
    rw [hnone] at hs
    exact ⟨rfl, hs.1, rfl⟩
  · obtain ⟨hread, hrequest⟩ := hs.of_headerField hfield
    have hrequest' : (s.1.request.map (field.store p)).isSome := by
      rw [Option.isSome_map]
      exact hrequest
    rcases (headerField_spec hfield).2.2 with hnext | hnext
    · unfold Valid
      rw [readField_fst, hnext]
      exact ⟨hread ▸ Nat.zero_le _, hrequest'⟩
    · refine valid_of_headerField ?_ ?_ ?_
      · rw [readField_fst]
        exact hnext
      · rw [readField_fst]
        exact hread
      · rw [readField_fst]
        exact hrequest'
  · exact ⟨rfl, rfl⟩
  · unfold Valid at hs ⊢
    rw [hdata] at hs
    have hstate : (afterBody settings s p).1.state = .bodyData := hdata
    rw [hstate]
    refine ⟨?_, hs.2⟩
    change s.1.requestBodyBytesRead + p.length ≤ s.1.requestLength
    unfold bodyLeft at hcut
    omega

/-- No state takes more than two iterations that consume nothing. -/
theorem State.weight_le (state : State) : state.weight ≤ 2 := by cases state <;> decide

/-- Every iteration gets closer to the end of the input. -/
theorem rank_iterate {s s' : CorParser × σ} {p rest : List UInt8} (hs : Valid s) (hp : p ≠ [])
    (hstep : iterate settings s p = some (s', rest)) : rank s' rest < rank s p := by
  have hpos := List.length_pos_iff.mpr hp
  rcases iterate_cases hs hstep with ⟨hnone, rfl, rfl⟩ | ⟨field, hfield, hsize, rfl, rfl⟩ |
    ⟨hdata, hwhole, rfl, rfl⟩ | ⟨hdata, hcut, rfl, rfl⟩
  · unfold rank
    rw [hnone]
    exact Nat.lt_succ_self _
  · have hfieldSize := (headerField_spec hfield).1
    have hnext := State.weight_le (readField settings field s.1 s.2 p).1.state
    unfold rank
    rw [List.length_drop]
    omega
  · unfold rank
    rw [hdata, List.length_drop]
    change 3 * (p.length - s.1.bodyLeft) + 1 < 3 * p.length + 2
    omega
  · have hnext := State.weight_le (afterBody settings s p).1.state
    unfold rank
    rw [List.length_nil]
    omega

/-- More input does not change an iteration, or it goes on where the iteration ended. -/
theorem iterate_append (hbody : AppendsBody settings) {s s' : CorParser × σ}
    {p rest : List UInt8} (more : List UInt8) (hs : Valid s)
    (hstep : iterate settings s p = some (s', rest)) :
    iterate settings s (p ++ more) = some (s', rest ++ more) ∨
      rest = [] ∧ (more ≠ [] → ∃ next, iterate settings s (p ++ more) = some next ∧
        iterate settings s' more = some next) := by
  rcases iterate_cases hs hstep with ⟨hnone, rfl, rfl⟩ | ⟨field, hfield, hsize, rfl, rfl⟩ |
    ⟨hdata, hwhole, rfl, rfl⟩ | ⟨hdata, hcut, rfl, rfl⟩
  · exact Or.inl (iterate_of_none hnone _)
  · left
    have hall : field.fieldSize ≤ (p ++ more).length := by
      rw [List.length_append]
      omega
    rw [iterate_of_field hfield hall, List.drop_append_of_le_length hsize, readField, readField,
      (headerField_spec hfield).2.1 p more hsize]
  · left
    have hall : bodyLeft s.1 ≤ (p ++ more).length := by
      rw [List.length_append]
      omega
    rw [iterate_of_whole_body hdata (hs.of_bodyData hdata) hall,
      List.take_append_of_le_length hwhole, List.drop_append_of_le_length hwhole]
  · refine Or.inr ⟨rfl, fun hmore => ?_⟩
    have hdata' : (afterBody settings s p).1.state = .bodyData := hdata
    have hleft : bodyLeft (afterBody settings s p).1 = bodyLeft s.1 - p.length :=
      (Nat.sub_sub _ _ _).symm
    rcases Nat.lt_or_ge (p ++ more).length (bodyLeft s.1) with hall | hall
    · have hrest : more.length < bodyLeft (afterBody settings s p).1 := by
        rw [List.length_append] at hall
        omega
      refine ⟨_, iterate_of_cut_body hdata hall, ?_⟩
      rw [iterate_of_cut_body hdata' hrest, afterBody_append hbody hcut]
    · have hrest : bodyLeft (afterBody settings s p).1 ≤ more.length := by
        rw [List.length_append] at hall
        omega
      have htake : (p ++ more).take (bodyLeft s.1) =
          p ++ more.take (bodyLeft (afterBody settings s p).1) := by
        rw [List.take_append, List.take_of_length_le (Nat.le_of_lt hcut), hleft]
      have hdrop : (p ++ more).drop (bodyLeft s.1) =
          more.drop (bodyLeft (afterBody settings s p).1) := by
        rw [List.drop_append, List.drop_of_length_le (Nat.le_of_lt hcut), hleft, List.nil_append]
      refine ⟨_, iterate_of_whole_body hdata (hs.of_bodyData hdata) hall, ?_⟩
      have hvalid' := (valid_iterate hs hstep).of_bodyData hdata'
      rw [iterate_of_whole_body hdata' hvalid' hrest, htake, hdrop, afterFrame, afterFrame,
        afterBody_append hbody hcut]

/-- An iteration takes its bytes from the front. -/
theorem suffix_iterate {s s' : CorParser × σ} {p rest : List UInt8} (hs : Valid s)
    (hstep : iterate settings s p = some (s', rest)) : rest <:+ p := by
  rcases iterate_cases hs hstep with ⟨-, -, rfl⟩ | ⟨_, -, -, -, rfl⟩ | ⟨-, -, -, rfl⟩ |
    ⟨-, -, -, rfl⟩
  · exact List.suffix_refl _
  · exact List.drop_suffix _ _
  · exact List.drop_suffix _ _
  · exact List.nil_suffix

/-- A part of the object that no callback touches. -/
structure Untouched {β : Type*} (settings : CorParserSettings σ) (f : σ → β) : Prop where
  onFrameBegin : ∀ parser object,
    f (executeCallback settings.onFrameBegin parser object) = f object
  onFrameHeaderBegin : ∀ parser object,
    f (executeCallback settings.onFrameHeaderBegin parser object) = f object
  onFrameHeaderEnd : ∀ parser object,
    f (executeCallback settings.onFrameHeaderEnd parser object) = f object
  onFrameBodyData : ∀ parser data object,
    f (executeDataCallback settings.onFrameBodyData parser data object) = f object
  onFrameBodyDataEnd : ∀ parser object,
    f (executeCallback settings.onFrameBodyDataEnd parser object) = f object
  onFrameEnd : ∀ parser object,
    f (executeCallback settings.onFrameEnd parser object) = f object

/-- What no callback touches stays as it is. -/
theorem untouched_iterate {β : Type*} {f : σ → β} (hf : Untouched settings f)
    {s s' : CorParser × σ} {p rest : List UInt8} (hs : Valid s)
    (hstep : iterate settings s p = some (s', rest)) : f s'.2 = f s.2 := by
  have hbody : ∀ data, f (afterBody settings s data).2 = f s.2 := by
    intro data
    unfold afterBody
    split
    · exact hf.onFrameBodyData _ _ _
    · rfl
  rcases iterate_cases hs hstep with ⟨-, rfl, -⟩ | ⟨_, -, -, rfl, -⟩ | ⟨-, -, rfl, -⟩ |
    ⟨-, -, rfl, -⟩
  · exact (hf.onFrameHeaderBegin _ _).trans (hf.onFrameBegin _ _)
  · unfold readField
    split
    · exact hf.onFrameHeaderEnd _ _
    · rfl
  · exact (hf.onFrameEnd _ _).trans ((hf.onFrameBodyDataEnd _ _).trans (hbody _))
  · exact hbody p

/-- A map of the object that all callbacks commute with. -/
structure Commutes (settings : CorParserSettings σ) (f : σ → σ) : Prop where
  onFrameBegin : ∀ parser object, executeCallback settings.onFrameBegin parser (f object) =
    f (executeCallback settings.onFrameBegin parser object)
  onFrameHeaderBegin : ∀ parser object, executeCallback settings.onFrameHeaderBegin parser (f object) =
    f (executeCallback settings.onFrameHeaderBegin parser object)
  onFrameHeaderEnd : ∀ parser object, executeCallback settings.onFrameHeaderEnd parser (f object) =
    f (executeCallback settings.onFrameHeaderEnd parser object)
  onFrameBodyData : ∀ parser data object,
    executeDataCallback settings.onFrameBodyData parser data (f object) =
      f (executeDataCallback settings.onFrameBodyData parser data object)
  onFrameBodyDataEnd : ∀ parser object, executeCallback settings.onFrameBodyDataEnd parser (f object) =
    f (executeCallback settings.onFrameBodyDataEnd parser object)
  onFrameEnd : ∀ parser object, executeCallback settings.onFrameEnd parser (f object) =
    f (executeCallback settings.onFrameEnd parser object)

/-- Such a map commutes with reading the body. -/
theorem readBody_map {f : σ → σ} (hf : Commutes settings f) (parser : CorParser) (object : σ)
    (p : List UInt8) : readBody settings parser (f object) p =
      Prod.map (Prod.map id f) id (readBody settings parser object p) := by
  unfold readBody
  split
  · simp only [hf.onFrameBodyData, Prod.map_apply, id_eq]
  · rfl

/-- Such a map commutes with ending the frame. -/
theorem endRequest_map {f : σ → σ} (hf : Commutes settings f) (parser : CorParser) (object : σ) :
    endRequest settings parser (f object) = Prod.map id f (endRequest settings parser object) := by
  unfold endRequest
  split
  · simp only [hf.onFrameBodyDataEnd, hf.onFrameEnd, Prod.map_apply, id_eq]
  · rfl

/-- Such a map commutes with the iterations. -/
theorem iterate_map {f : σ → σ} (hf : Commutes settings f) (s : CorParser × σ) (p : List UInt8) :
    iterate settings (Prod.map id f s) p =
      (iterate settings s p).map (Prod.map (Prod.map id f) id) := by
  obtain ⟨parser, object⟩ := s
  unfold iterate
  simp only [Prod.map_apply, id_eq]
  split
  · simp only [Option.map_some, Prod.map_apply, id_eq, beginRequest, hf.onFrameBegin,
      hf.onFrameHeaderBegin]
  · split
    · split
      · rfl
      · unfold readField
        split
        · simp only [Option.map_some, Prod.map_apply, id_eq, hf.onFrameHeaderEnd]
        · rfl
    · rw [readBody_map hf, Option.map_some]
      simp only [Prod.map_fst, Prod.map_snd, id_eq, endRequest_map hf]
      rfl

/-- The loop of the parser is resumable. -/
theorem iterate_lawful (hbody : AppendsBody settings) :
    Resumable.Lawful (iterate settings) Valid rank where
  valid hs _ hstep := valid_iterate hs hstep
  rank_lt hs hp hstep := rank_iterate hs hp hstep
  extend more hs _ hstep := iterate_append hbody more hs hstep
  suffix hs hstep := suffix_iterate hs hstep

/-- A call of the parser runs its loop to the end and counts what the loop has taken. -/
theorem parse_eq (hbody : AppendsBody settings) {s : CorParser × σ} (hs : Valid s)
    (data : List UInt8) :
    parse settings s data =
      ((Resumable.consume (iterate settings) rank s data).1,
        data.length - (Resumable.consume (iterate settings) rank s data).2.length) := by
  have hfuel : rank s data ≤ 3 * data.length + 2 :=
    Nat.add_le_add_left (State.weight_le s.1.state) _
  rw [parse, Resumable.loop_eq_consume (iterate_lawful hbody) hs hfuel]

/-- Parse what was kept and some new bytes, and keep what was not taken. -/
def readPiece (settings : CorParserSettings σ) (x : (CorParser × σ) × List UInt8) (bytes : List UInt8) :
    (CorParser × σ) × List UInt8 :=
  let buffer := x.2 ++ bytes
  let parsed := parse settings x.1 buffer
  let read := parsed.2
  (parsed.1, if read > 0 then if read < buffer.length then buffer.drop read else [] else buffer)

/-- Dropping what was counted as read leaves the end of the buffer. -/
theorem keep_eq {buffer rest : List UInt8} (h : rest <:+ buffer) :
    (if buffer.length - rest.length > 0 then
      if buffer.length - rest.length < buffer.length then
        buffer.drop (buffer.length - rest.length) else []
    else buffer) = rest := by
  obtain ⟨taken, rfl⟩ := h
  have hlength : (taken ++ rest).length - rest.length = taken.length := by simp
  rw [hlength]
  split
  · split
    · exact List.drop_left
    · rw [List.length_append] at *
      exact (List.eq_nil_of_length_eq_zero (by omega)).symm
  · rw [List.eq_nil_of_length_eq_zero (by omega : taken.length = 0), List.nil_append]

/-- A read lets the parser consume what was left and what is new. -/
theorem readPiece_eq (hbody : AppendsBody settings) {x : (CorParser × σ) × List UInt8} (hx : Valid x.1)
    (bytes : List UInt8) :
    readPiece settings x bytes = Resumable.receive (iterate settings) rank x bytes := by
  have hkeep := keep_eq (Resumable.consume_suffix (iterate_lawful hbody) hx (x.2 ++ bytes))
  simp only [readPiece, parse_eq hbody hx, hkeep, Resumable.receive]

/-- The reads of a stream from the beginning lead where one read of all of it leads. -/
theorem foldl_readPiece (hbody : AppendsBody settings) (object : σ) (pieces : List (List UInt8)) :
    pieces.foldl (readPiece settings) (({}, object), []) =
      Resumable.consume (iterate settings) rank ({}, object) pieces.flatten := by
  have hreceive : ∀ {x : (CorParser × σ) × List UInt8}, Valid x.1 → ∀ pieces : List (List UInt8),
      pieces.foldl (readPiece settings) x =
        pieces.foldl (Resumable.receive (iterate settings) rank) x := by
    intro x hx pieces
    induction pieces generalizing x with
    | nil => rfl
    | cons bytes pieces ih =>
      rw [List.foldl_cons, List.foldl_cons, readPiece_eq hbody hx]
      exact ih (Resumable.consume_valid (iterate_lawful hbody) hx _)
  have hsettled : Resumable.Settled (iterate settings) rank ((({} : CorParser), object), []) :=
    Resumable.consume_nil _
  rw [hreceive (valid_idle object),
    Resumable.foldl_receive (iterate_lawful hbody) (valid_idle object) hsettled]
  rfl

section Consume

variable (hbody : AppendsBody settings)

include hbody

/-- The parser consumes a header field that is there as a whole. -/
theorem consume_field {state : State} {field : HeaderField} (hfield : headerField state = some field)
    (hstate : state ≠ .bodyData) (request : CorFrame) (object : σ) {bytes : List UInt8}
    (hlength : bytes.length = field.fieldSize) (more : List UInt8) :
    Resumable.consume (iterate settings) rank ({ state, request := some request }, object)
        (bytes ++ more) =
      Resumable.consume (iterate settings) rank
        (readField settings field { state, request := some request } object (bytes ++ more)) more := by
  have hpos := (headerField_spec hfield).1
  have hsize : field.fieldSize ≤ (bytes ++ more).length := by
    rw [List.length_append]
    omega
  have hsome : bytes ++ more ≠ [] := List.ne_nil_of_length_pos (by omega)
  have hvalid : Valid (({ state, request := some request } : CorParser), object) :=
    valid_of_headerField ⟨hstate, by rw [hfield]; rfl⟩ rfl rfl
  have hstep : iterate settings ({ state, request := some request }, object) (bytes ++ more) =
      some (readField settings field { state, request := some request } object (bytes ++ more),
        (bytes ++ more).drop field.fieldSize) := iterate_of_field hfield hsize
  rw [Resumable.consume_of_some (iterate_lawful hbody) hvalid hsome hstep, List.drop_left' hlength]

/-- The parser consumes the header of a frame. The flags are skipped. -/
theorem consume_header (version type : UInt16) (correlationId : UInt32) (flags : UInt8)
    (length : UInt32) (object : σ) (more : List UInt8) :
    Resumable.consume (iterate settings) rank (({} : CorParser), object)
        (writeUInt16 version ++ (writeUInt16 type ++ (writeUInt8 flags ++
          (writeUInt32 correlationId ++ (writeUInt32 length ++ more))))) =
      Resumable.consume (iterate settings) rank
        (({ state := .bodyData
            request := some ⟨some version, some type, none, some correlationId, some length⟩ } : CorParser),
          executeCallback settings.onFrameHeaderEnd
            { state := .bodyData
              request := some ⟨some version, some type, none, some correlationId, some length⟩ }
            (beginRequest settings {} object).2) more := by
  have hsome : ∀ rest, writeUInt16 version ++ rest ≠ [] := fun rest =>
    List.append_ne_nil_of_left_ne_nil (List.ne_nil_of_length_pos (by simp [writeUInt16])) rest
  calc
    _ = Resumable.consume (iterate settings) rank
          (({ state := .headerVersion, request := some {} } : CorParser), (beginRequest settings {} object).2)
          (writeUInt16 version ++ (writeUInt16 type ++ (writeUInt8 flags ++
            (writeUInt32 correlationId ++ (writeUInt32 length ++ more))))) :=
      Resumable.consume_of_some (iterate_lawful hbody) (valid_idle object) (hsome _) (iterate_of_none rfl _)
    _ = Resumable.consume (iterate settings) rank
          (({ state := .headerType, request := some { version := some version } } : CorParser),
            (beginRequest settings {} object).2)
          (writeUInt16 type ++ (writeUInt8 flags ++
            (writeUInt32 correlationId ++ (writeUInt32 length ++ more)))) := by
      rw [consume_field hbody rfl (by decide) _ _ (writeNumber_length 2 _)]
      simp [readField]
    _ = Resumable.consume (iterate settings) rank
          (({ state := .headerFlags
              request := some { version := some version, type := some type } } : CorParser),
            (beginRequest settings {} object).2)
          (writeUInt8 flags ++ (writeUInt32 correlationId ++ (writeUInt32 length ++ more))) := by
      rw [consume_field hbody rfl (by decide) _ _ (writeNumber_length 2 _)]
      simp [readField]
    _ = Resumable.consume (iterate settings) rank
          (({ state := .headerCorrelationId
              request := some { version := some version, type := some type } } : CorParser),
            (beginRequest settings {} object).2)
          (writeUInt32 correlationId ++ (writeUInt32 length ++ more)) := by
      rw [consume_field hbody rfl (by decide) _ _ (writeNumber_length 1 _)]
      simp [readField]
    _ = Resumable.consume (iterate settings) rank
          (({ state := .headerBodyLength
              request := some
                { version := some version, type := some type, correlationId := some correlationId } } : CorParser),
            (beginRequest settings {} object).2)
          (writeUInt32 length ++ more) := by
      rw [consume_field hbody rfl (by decide) _ _ (writeNumber_length 4 _)]
      simp [readField]
    _ = _ := by
      rw [consume_field hbody rfl (by decide) _ _ (writeNumber_length 4 _)]
      simp [readField]

/-- The parser consumes a body that is there as a whole, provided that it is run at all. -/
theorem consume_body {request : CorFrame} {length : UInt32} (hrequest : request.length = some length)
    (object : σ) {data : List UInt8} (hlength : data.length = length.toNat) {more : List UInt8}
    (hsome : data ++ more ≠ []) :
    Resumable.consume (iterate settings) rank
        (({ state := .bodyData, request := some request } : CorParser), object) (data ++ more) =
      Resumable.consume (iterate settings) rank
        (afterFrame settings ({ state := .bodyData, request := some request }, object) data) more := by
  have hleft : bodyLeft { state := .bodyData, request := some request } = data.length := by
    rw [bodyLeft, requestLength, Option.bind_some, hrequest, Option.map_some, Option.getD_some, hlength,
      Nat.sub_zero]
  have hwhole : bodyLeft { state := .bodyData, request := some request } ≤ (data ++ more).length := by
    rw [hleft, List.length_append]
    exact Nat.le_add_right _ _
  have hstep : iterate settings ({ state := .bodyData, request := some request }, object)
      (data ++ more) = some (afterFrame settings
        ({ state := .bodyData, request := some request }, object) data, more) := by
    rw [iterate_of_whole_body rfl (Nat.zero_le _) hwhole, hleft, List.take_left, List.drop_left]
  exact Resumable.consume_of_some (iterate_lawful hbody) (valid_behind_header request object) hsome hstep

end Consume

end Ts3Video.CorParser
