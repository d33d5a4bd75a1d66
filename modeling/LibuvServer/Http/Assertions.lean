import LibuvServer.Http.Cases
import Mathlib.Tactic.Common

/-!
# No assertion of the parser fails

What holds in every state of the parser, on any bytes: which mark can be set,
what a name or a value can be compared with, where a method is read, and what
the lengths of bodies and chunks are. From this no assertion fails, and no name
of a method is read behind its end.
-/

namespace LibuvServer.Http

open LibuvServer.Netbus

/-! ## What holds in a state -/

/-- The states in which `url_mark` can be set. -/
def State.inUrl : State → Bool
  | s_req_schema | s_req_schema_slash | s_req_schema_slash_slash | s_req_server_start
  | s_req_server | s_req_server_with_at | s_req_path | s_req_query_string_start
  | s_req_query_string | s_req_fragment_start | s_req_fragment => true
  | _ => false

/-- The states in which `body_mark` can be set. -/
def State.inBody : State → Bool
  | s_chunk_data | s_chunk_data_almost_done | s_body_identity => true
  | _ => false

theorem inBody_of_inUrl {s : State} (h : s.inUrl = true) : s.inBody = false := by
  cases s
  all_goals first
    | rfl
    | cases h

/-- The states of a name: an assertion of `s_header_field`. -/
def HeaderState.inName : HeaderState → Bool
  | h_general | h_C | h_CO | h_CON | h_matching_connection | h_matching_proxy_connection
  | h_matching_content_length | h_matching_transfer_encoding | h_matching_upgrade
  | h_connection | h_content_length | h_transfer_encoding | h_upgrade => true
  | _ => false

/-- The states of a value: an assertion of `s_header_value`. -/
def HeaderState.inValue : HeaderState → Bool
  | h_connection | h_transfer_encoding => false
  | _ => true

/-- What the parser's fields are in its state, with the `nread` a chunk starts
with. -/
def HttpParser.Stage (read : Nat) (parser : HttpParser) : Prop :=
  match parser.state with
  | .s_req_method => parser.index ≤ parser.method.string.length
  | .s_header_field => parser.header_state.inName = true
  | .s_header_value => parser.header_state.inValue = true
  | .s_chunk_size_start => parser.flags.F_CHUNKED = true ∧ parser.nread = read
  | .s_chunk_size | .s_chunk_parameters | .s_chunk_size_almost_done =>
    parser.flags.F_CHUNKED = true ∧ parser.content_length ≠ ULLONG_MAX
  | .s_chunk_data => parser.flags.F_CHUNKED = true ∧
      parser.content_length ≠ 0 ∧ parser.content_length ≠ ULLONG_MAX
  | .s_chunk_data_almost_done => parser.flags.F_CHUNKED = true ∧ parser.content_length = 0
  | .s_chunk_data_done => parser.flags.F_CHUNKED = true
  | .s_body_identity => parser.content_length ≠ 0 ∧ parser.content_length ≠ ULLONG_MAX
  | .s_body_identity_eof => False
  | _ => True

section Marks

variable {Mark : Type}

/-- A mark is set in the states it is for only. -/
def Vars.Marked (v : Vars Mark) : Prop :=
  (v.url_mark = none ∨ v.parser.state.inUrl = true) ∧
    (v.header_field_mark = none ∨ v.parser.state = .s_header_field) ∧
      (v.header_value_mark = none ∨ v.parser.state = .s_header_value) ∧
        (v.body_mark = none ∨ v.parser.state.inBody = true)

/-- No mark is set. -/
def Vars.Blank (v : Vars Mark) : Prop :=
  v.url_mark = none ∧ v.header_field_mark = none ∧ v.header_value_mark = none ∧
    v.body_mark = none

theorem Vars.Blank.marked {v : Vars Mark} (h : v.Blank) : v.Marked :=
  ⟨.inl h.1, .inl h.2.1, .inl h.2.2.1, .inl h.2.2.2⟩

theorem Vars.Marked.blank {v : Vars Mark} {s : State} (h : v.Marked) (hs : v.parser.state = s)
    (hmark : s.inUrl = false ∧ s ≠ .s_header_field ∧ s ≠ .s_header_value ∧ s.inBody = false) :
    v.Blank := by
  subst hs
  obtain ⟨hurl, hfield, hvalue, hbody⟩ := hmark
  refine ⟨h.1.resolve_right ?_, h.2.1.resolve_right hfield, h.2.2.1.resolve_right hvalue,
    h.2.2.2.resolve_right ?_⟩
  · rw [hurl]
    exact Bool.false_ne_true
  · rw [hbody]
    exact Bool.false_ne_true

/-- Only the mark of the target is set. -/
def Vars.OnlyUrl (v : Vars Mark) : Prop :=
  v.header_field_mark = none ∧ v.header_value_mark = none ∧ v.body_mark = none

/-- Only the mark of the body is set. -/
def Vars.OnlyBody (v : Vars Mark) : Prop :=
  v.url_mark = none ∧ v.header_field_mark = none ∧ v.header_value_mark = none

theorem Vars.Marked.onlyUrl {v : Vars Mark} (h : v.Marked) (hs : v.parser.state.inUrl = true) :
    v.OnlyUrl := by
  refine ⟨h.2.1.resolve_right ?_, h.2.2.1.resolve_right ?_, h.2.2.2.resolve_right ?_⟩
  · intro hfield
    rw [hfield] at hs
    cases hs
  · intro hvalue
    rw [hvalue] at hs
    cases hs
  · rw [inBody_of_inUrl hs]
    exact Bool.false_ne_true

theorem Vars.Marked.onlyBody {v : Vars Mark} (h : v.Marked) (hs : v.parser.state.inBody = true) :
    v.OnlyBody := by
  refine ⟨h.1.resolve_right ?_, h.2.1.resolve_right ?_, h.2.2.1.resolve_right ?_⟩
  · intro hurl
    rw [inBody_of_inUrl hurl] at hs
    cases hs
  · intro hfield
    rw [hfield] at hs
    cases hs
  · intro hvalue
    rw [hvalue] at hs
    cases hs

/-- At most one mark is set. -/
theorem Vars.Marked.atEnd {v : Vars Mark} (h : v.Marked) (place : Place Mark) :
    atEnd place v ≠ .faulted := by
  have hcount : [v.header_field_mark.isSome, v.header_value_mark.isSome, v.url_mark.isSome,
      v.body_mark.isSome].count true ≤ 1 := by
    obtain ⟨h1, h2, h3, h4⟩ := h
    cases hs : v.parser.state
    all_goals
      rw [hs] at h1 h2 h3 h4
      simp only [State.inUrl, State.inBody, reduceCtorEq, Bool.false_eq_true, or_false] at *
      simp only [h1, h2, h3, h4, Option.isSome_none]
      generalize v.url_mark.isSome = url, v.header_field_mark.isSome = field,
        v.header_value_mark.isSome = value, v.body_mark.isSome = body
      revert url field value body
      decide
  unfold Http.atEnd
  rw [if_pos hcount]
  exact Executed.noConfusion

/-! ## The cases for one byte -/

/-- No assertion fails, and the next state is one of those that can be. -/
def Flow.Safe : Flow Mark → Prop
  | .next v => v.Marked ∧ v.parser.Stage 0
  | .faulted => False
  | _ => True

variable {v : Vars Mark} {place : Place Mark} {ch : UInt8}

theorem Vars.Blank.safe (h : v.Blank) (hstage : v.parser.Stage 0) : (Flow.next v).Safe :=
  ⟨h.marked, hstage⟩

theorem newMessage_safe (h : v.Blank) : (Flow.next v.newMessage).Safe := by
  refine Vars.Blank.safe (v := v.newMessage) h ?_
  unfold Vars.newMessage
  split <;> exact trivial

theorem messageDone_safe (h : v.Blank) : (messageDone v).Safe := by
  unfold messageDone
  split
  · trivial
  · exact newMessage_safe h

theorem headersDone_safe (h : v.Blank) : (headersDone ch v).Safe := by
  unfold headersDone
  split
  · trivial
  · dsimp only
    split
    · trivial
    · split
      · exact newMessage_safe h
      · split
        · rename_i hchunked
          exact Vars.Blank.safe (v := Vars.update _ .s_chunk_size_start) h ⟨hchunked, rfl⟩
        · split
          · exact newMessage_safe h
          · rename_i hzero
            split
            · rename_i hmax
              exact Vars.Blank.safe (v := Vars.update _ .s_body_identity) h ⟨hzero, hmax⟩
            · rw [if_pos (by rfl)]
              exact newMessage_safe h

theorem headersAlmostDone_safe (h : v.Blank) : (headersAlmostDone ch v).Safe := by
  unfold headersAlmostDone
  split
  · trivial
  · dsimp only
    split
    · exact messageDone_safe (v := v.update .s_message_done) h
    · split
      · trivial
      · exact headersDone_safe h

theorem inName_fieldStart (c : UInt8) : (fieldStart c).inName = true := by
  unfold fieldStart
  repeat' split
  all_goals rfl

theorem headerFieldStart_safe (h : v.Blank) : (headerFieldStart place ch v).Safe := by
  unfold headerFieldStart
  split
  · exact Vars.Blank.safe (v := v.update .s_headers_almost_done) h trivial
  · split
    · exact headersAlmostDone_safe (v := v.update .s_headers_almost_done) h
    · split
      · trivial
      · exact ⟨⟨.inl h.1, .inr rfl, .inl h.2.2.1, .inl h.2.2.2⟩, inName_fieldStart _⟩

theorem valueStart_inValue {parser parser' : HttpParser} (h : valueStart ch parser = .inr parser') :
    parser'.state = parser.state ∧ parser'.header_state.inValue = true := by
  unfold valueStart at h
  dsimp only at h
  split at h
  case h_4 hws | h_5 hws =>
    cases h
    exact ⟨rfl, by rw [hws]; rfl⟩
  all_goals
    repeat' split at h
  all_goals first
    | (cases h; done)
    | (cases h; exact ⟨rfl, rfl⟩)

theorem headerValueStart_safe (h : v.Blank) : (headerValueStart place ch v).Safe := by
  unfold headerValueStart
  dsimp only
  split
  · trivial
  · rename_i parser hstart
    obtain ⟨hstate, hvalue⟩ := valueStart_inValue hstart
    refine ⟨⟨.inl h.1, .inl h.2.1, .inr hstate, .inl h.2.2.2⟩, ?_⟩
    have hs : parser.state = .s_header_value := hstate
    simp only [HttpParser.Stage, hs]
    exact hvalue

theorem headerValueDiscardWs_safe (h : v.Blank) (hs : v.parser.state = .s_header_value_discard_ws) :
    (headerValueDiscardWs place ch v).Safe := by
  unfold headerValueDiscardWs
  split
  · refine h.safe ?_
    simp only [HttpParser.Stage, hs]
  · split
    · exact Vars.Blank.safe (v := v.update .s_header_value_discard_ws_almost_done) h trivial
    · split
      · exact Vars.Blank.safe (v := v.update .s_header_value_discard_lws) h trivial
      · exact headerValueStart_safe h

theorem headerValueLws_safe (h : v.Blank) : (headerValueLws place ch v).Safe := by
  unfold headerValueLws
  split
  · refine headerValueStart_safe ?_
    split <;> exact h
  · exact headerFieldStart_safe (v := Vars.update _ .s_header_field_start) h

theorem headerAlmostDone_safe (h : v.Blank) : (headerAlmostDone ch v).Safe := by
  unfold headerAlmostDone
  split
  · trivial
  · exact Vars.Blank.safe (v := v.update .s_header_value_lws) h trivial

theorem headerValueDiscardLws_safe (h : v.Blank) : (headerValueDiscardLws place ch v).Safe := by
  unfold headerValueDiscardLws
  split
  · exact Vars.Blank.safe (v := v.update .s_header_value_discard_ws) h trivial
  · split
    · trivial
    · exact headerFieldStart_safe (v := Vars.callValue _ place) ⟨h.1, h.2.1, rfl, h.2.2.2⟩

/-! ## The request line -/

theorem inUrl_parseUrlChar (s : State) (ch : UInt8) :
    parseUrlChar s ch = .s_dead ∨ (parseUrlChar s ch).inUrl = true := by
  unfold parseUrlChar
  split
  · exact .inl rfl
  · split
    all_goals
      repeat' split
    all_goals first
      | exact .inl rfl
      | exact .inr rfl

theorem stage_of_inUrl {parser : HttpParser} {n : Nat} (h : parser.state.inUrl = true) :
    parser.Stage n := by
  unfold HttpParser.Stage
  cases hs : parser.state
  all_goals
    rw [hs] at h
  all_goals first
    | exact trivial
    | cases h

theorem urlChar_safe (h : v.OnlyUrl) : (urlChar ch v).Safe := by
  unfold urlChar
  dsimp only
  split
  · trivial
  · rename_i hdead
    have hurl := (inUrl_parseUrlChar v.parser.state ch).resolve_left hdead
    exact ⟨⟨.inr hurl, .inl h.1, .inl h.2.1, .inl h.2.2⟩, stage_of_inUrl hurl⟩

theorem reqSpacesBeforeUrl_safe (h : v.Blank) (hs : v.parser.state = .s_req_spaces_before_url) :
    (reqSpacesBeforeUrl place ch v).Safe := by
  unfold reqSpacesBeforeUrl
  split
  · refine h.safe ?_
    simp only [HttpParser.Stage, hs]
  · refine urlChar_safe ?_
    split <;> exact h.2

theorem reqSchema_safe (h : v.OnlyUrl) : (reqSchema ch v).Safe := by
  unfold reqSchema
  split
  · trivial
  · exact urlChar_safe h

theorem reqUrl_safe (h : v.OnlyUrl) : (reqUrl ch v).Safe := by
  unfold reqUrl
  split
  · exact Vars.Blank.safe (v := (v.update .s_req_http_start).callUrl) ⟨rfl, h⟩ trivial
  · split
    · refine Vars.Blank.safe (v := Vars.callUrl _) ⟨rfl, h⟩ ?_
      unfold Vars.callUrl
      dsimp only [Vars.update]
      split <;> exact trivial
    · exact urlChar_safe h

theorem string_pos (m : Method) : 1 ≤ m.string.length := by
  cases m <;> decide +kernel

theorem startReq_safe (h : v.Blank) (hs : v.parser.state = .s_start_req) :
    (startReq ch v).Safe := by
  unfold startReq
  split
  · refine h.safe ?_
    simp only [HttpParser.Stage, hs]
  · dsimp only
    split
    · trivial
    · split
      · trivial
      · rename_i m _
        exact Vars.Blank.safe h (string_pos m)

/-- Another method is at least as long as what has come of it. -/
theorem change_lt {m m' : Method} {i : Nat} (h : m.change i ch = some m') :
    i < m'.string.length := by
  unfold Method.change at h
  split at h
  all_goals
    repeat' split at h
  all_goals
    cases h
  all_goals
    decide +kernel

/-- A byte of a method that is not its terminator. -/
theorem matcher_lt {m : Method} {i : Nat} {x : UInt8} (h : m.matcher i = some x) (hx : x ≠ 0) :
    i < m.string.length := by
  unfold Method.matcher at h
  by_contra hle
  rw [List.getElem?_append_right (Nat.le_of_not_lt hle)] at h
  cases hi : i - m.string.length with
  | zero =>
    rw [hi] at h
    cases h
    exact hx rfl
  | succ n =>
    rw [hi] at h
    cases h

theorem reqMethod_safe (h : v.Blank) (hs : v.parser.state = .s_req_method)
    (hindex : v.parser.index ≤ v.parser.method.string.length) : (reqMethod ch v).Safe := by
  have hnext : ∀ parser : HttpParser, parser.state = .s_req_method →
      parser.index < parser.method.string.length →
      (Flow.next ({ v with parser := parser } : Vars Mark).incIndex).Safe := by
    intro parser hparser hlt
    refine Vars.Blank.safe (v := Vars.incIndex _) h ?_
    simp only [HttpParser.Stage, Vars.incIndex, hparser]
    exact Nat.le_trans (Nat.mod_le _ _) hlt
  unfold reqMethod
  split
  · trivial
  · rename_i hzero
    split
    · rename_i hnone
      rw [Method.matcher, List.getElem?_eq_none_iff, List.length_append] at hnone
      exact absurd (Nat.lt_succ_of_le hindex) (Nat.not_lt.mpr hnone)
    · rename_i x hsome
      split
      · exact Vars.Blank.safe (v := (v.update .s_req_spaces_before_url).incIndex) h trivial
      · split
        · rename_i hx
          exact hnext v.parser hs (matcher_lt hsome (hx ▸ hzero))
        · split
          · split
            · trivial
            · rename_i m hchange
              exact hnext { v.parser with method := m } hs (change_lt hchange)
          · trivial

/-! ## Chunks -/

theorem chunkSizeStart_safe (h : v.Blank) (hchunked : v.parser.flags.F_CHUNKED = true)
    (hread : v.parser.nread = 1) : (chunkSizeStart ch v).Safe := by
  unfold chunkSizeStart
  rw [if_neg (fun hor => hor.elim (· hread) (· hchunked))]
  split
  · trivial
  · rename_i n hhex
    refine Vars.Blank.safe h ⟨hchunked, ?_⟩
    exact Nat.ne_of_lt (Nat.lt_of_le_of_lt (unhex_le hhex) (by decide))

theorem chunkSize_safe (h : v.Blank) (hchunked : v.parser.flags.F_CHUNKED = true)
    (hlength : v.parser.content_length ≠ ULLONG_MAX) (hs : v.parser.state = .s_chunk_size) :
    (chunkSize ch v).Safe := by
  unfold chunkSize
  rw [if_neg (not_not.mpr hchunked)]
  split
  · exact Vars.Blank.safe (v := v.update .s_chunk_size_almost_done) h ⟨hchunked, hlength⟩
  · split
    · split
      · exact Vars.Blank.safe (v := v.update .s_chunk_parameters) h ⟨hchunked, hlength⟩
      · trivial
    · rename_i n hhex
      split
      · trivial
      · refine Vars.Blank.safe h ?_
        simp only [HttpParser.Stage, hs]
        refine ⟨hchunked, ?_⟩
        have hle := unhex_le hhex
        unfold ULLONG_MAX at *
        omega

theorem chunkParameters_safe (h : v.Blank) (hchunked : v.parser.flags.F_CHUNKED = true)
    (hlength : v.parser.content_length ≠ ULLONG_MAX) (hs : v.parser.state = .s_chunk_parameters) :
    (chunkParameters ch v).Safe := by
  unfold chunkParameters
  rw [if_neg (not_not.mpr hchunked)]
  split
  · exact Vars.Blank.safe (v := v.update .s_chunk_size_almost_done) h ⟨hchunked, hlength⟩
  · refine h.safe ?_
    simp only [HttpParser.Stage, hs]
    exact ⟨hchunked, hlength⟩

theorem chunkSizeAlmostDone_safe (h : v.Blank) (hchunked : v.parser.flags.F_CHUNKED = true)
    (hlength : v.parser.content_length ≠ ULLONG_MAX) : (chunkSizeAlmostDone ch v).Safe := by
  unfold chunkSizeAlmostDone
  rw [if_neg (not_not.mpr hchunked)]
  split
  · trivial
  · dsimp only
    split
    · exact Vars.Blank.safe (v := Vars.update _ .s_header_field_start) h trivial
    · rename_i hzero
      exact Vars.Blank.safe (v := Vars.update _ .s_chunk_data) h ⟨hchunked, hzero, hlength⟩

theorem chunkDataAlmostDone_safe (h : v.OnlyBody) (hchunked : v.parser.flags.F_CHUNKED = true)
    (hlength : v.parser.content_length = 0) : (chunkDataAlmostDone ch v).Safe := by
  unfold chunkDataAlmostDone
  rw [if_neg (fun hor => hor.elim (· hchunked) (· hlength))]
  split
  · trivial
  · exact Vars.Blank.safe (v := (v.update .s_chunk_data_done).callBody)
      ⟨h.1, h.2.1, h.2.2, rfl⟩ hchunked

theorem chunkDataDone_safe (h : v.Blank) (hchunked : v.parser.flags.F_CHUNKED = true) :
    (chunkDataDone ch v).Safe := by
  unfold chunkDataDone
  rw [if_neg (not_not.mpr hchunked)]
  split
  · trivial
  · exact Vars.Blank.safe h ⟨hchunked, rfl⟩

/-- **The `switch`** fails no assertion. -/
theorem switch_safe (h : v.Marked) (hstage : v.parser.Stage 1)
    (hfield : v.parser.state ≠ .s_header_field) (hvalue : v.parser.state ≠ .s_header_value)
    (hbody : v.parser.state ≠ .s_body_identity) (heof : v.parser.state ≠ .s_body_identity_eof)
    (hchunk : v.parser.state ≠ .s_chunk_data) : (switch place ch v).Safe := by
  unfold switch
  cases hs : v.parser.state with
  | s_header_field => exact absurd hs hfield
  | s_header_value => exact absurd hs hvalue
  | s_body_identity => exact absurd hs hbody
  | s_body_identity_eof => exact absurd hs heof
  | s_chunk_data => exact absurd hs hchunk
  | s_req_schema | s_req_schema_slash | s_req_schema_slash_slash | s_req_server_start =>
    exact reqSchema_safe (h.onlyUrl (by rw [hs]; rfl))
  | s_req_server | s_req_server_with_at | s_req_path | s_req_query_string_start
  | s_req_query_string | s_req_fragment_start | s_req_fragment =>
    exact reqUrl_safe (h.onlyUrl (by rw [hs]; rfl))
  | s_start_req => exact startReq_safe (h.blank hs (by decide)) hs
  | s_req_method =>
    simp only [HttpParser.Stage, hs] at hstage
    exact reqMethod_safe (h.blank hs (by decide)) hs hstage
  | s_req_spaces_before_url => exact reqSpacesBeforeUrl_safe (h.blank hs (by decide)) hs
  | s_header_field_start => exact headerFieldStart_safe (h.blank hs (by decide))
  | s_header_value_discard_ws => exact headerValueDiscardWs_safe (h.blank hs (by decide)) hs
  | s_header_value_discard_lws => exact headerValueDiscardLws_safe (h.blank hs (by decide))
  | s_header_value_start => exact headerValueStart_safe (h.blank hs (by decide))
  | s_header_value_lws => exact headerValueLws_safe (h.blank hs (by decide))
  | s_header_almost_done => exact headerAlmostDone_safe (h.blank hs (by decide))
  | s_headers_almost_done => exact headersAlmostDone_safe (h.blank hs (by decide))
  | s_headers_done => exact headersDone_safe (h.blank hs (by decide))
  | s_message_done => exact messageDone_safe (h.blank hs (by decide))
  | s_chunk_size_start =>
    simp only [HttpParser.Stage, hs] at hstage
    exact chunkSizeStart_safe (h.blank hs (by decide)) hstage.1 hstage.2
  | s_chunk_size =>
    simp only [HttpParser.Stage, hs] at hstage
    exact chunkSize_safe (h.blank hs (by decide)) hstage.1 hstage.2 hs
  | s_chunk_parameters =>
    simp only [HttpParser.Stage, hs] at hstage
    exact chunkParameters_safe (h.blank hs (by decide)) hstage.1 hstage.2 hs
  | s_chunk_size_almost_done =>
    simp only [HttpParser.Stage, hs] at hstage
    exact chunkSizeAlmostDone_safe (h.blank hs (by decide)) hstage.1 hstage.2
  | s_chunk_data_almost_done =>
    simp only [HttpParser.Stage, hs] at hstage
    exact chunkDataAlmostDone_safe (h.onlyBody (by rw [hs]; rfl)) hstage.1 hstage.2
  | s_chunk_data_done =>
    simp only [HttpParser.Stage, hs] at hstage
    exact chunkDataDone_safe (h.blank hs (by decide)) hstage
  | _ =>
    -- one byte is compared, and nothing is said of the parser where it goes on
    have hblank : v.Blank := h.blank hs (by decide)
    have hstay : v.parser.Stage 0 := by
      simp only [HttpParser.Stage, hs]
    dsimp only [Vars.expect, reqHttpStart, reqHttpMajor, reqHttpDot, reqHttpMinor, reqHttpEnd,
      reqLineAlmostDone]
    repeat' split
    all_goals first
      | exact hblank.safe hstay
      | exact Vars.Blank.safe hblank trivial
      | trivial

end Marks

/-! ## Names and values -/

theorem matching_good {good : HeaderState → Bool} {word : Bytes} {index : Nat} {c : UInt8}
    {now found other : HeaderState} (hnow : good now = true) (hfound : good found = true)
    (hother : good other = true) : good (matching word index c now found other) = true := by
  unfold matching
  split
  · exact hother
  · split
    · exact hfound
    · exact hnow

theorem inName_fieldState {h : HeaderState} (hname : h.inName = true) (index : Nat) (ch c : UInt8) :
    ∃ h', fieldState h index ch c = some h' ∧ h'.inName = true := by
  cases h
  all_goals first
    | (cases hname; done)
    | exact ⟨_, rfl, matching_good rfl rfl rfl⟩
    | (refine ⟨_, rfl, ?_⟩
       repeat' split
       all_goals rfl)

theorem fieldByte_safe {parser : HttpParser} (h : parser.header_state.inName = true) (ch : UInt8) :
    ∃ parser', fieldByte ch parser = some parser' ∧ parser'.header_state.inName = true := by
  obtain ⟨h', hfield, hname⟩ :=
    inName_fieldState h (parser.header_state.counted parser.index) ch (TOKEN ch)
  refine ⟨{ parser with
    header_state := h', index := parser.header_state.counted parser.index }, ?_, hname⟩
  unfold fieldByte
  dsimp only
  rw [hfield, Option.map_some]

theorem valueByte_ne_none {parser : HttpParser} (h : parser.header_state.inValue = true)
    (ch : UInt8) : valueByte ch parser ≠ none := by
  unfold valueByte
  dsimp only
  split
  case h_2 hs | h_3 hs =>
    rw [hs] at h
    cases h
  all_goals
    repeat' split
  all_goals exact Option.some_ne_none _

theorem inValue_contentLengthNum {parser parser' : HttpParser} {ch : UInt8}
    (h : contentLengthNum ch parser = .inr parser') : parser'.header_state.inValue = true := by
  unfold contentLengthNum at h
  repeat' split at h
  all_goals
    cases h
  all_goals rfl

theorem inValue_valueByte {parser parser' : HttpParser} {ch : UInt8}
    (hvalue : parser.header_state.inValue = true)
    (h : valueByte ch parser = some (.inr parser')) : parser'.header_state.inValue = true := by
  have hnum : some (contentLengthNum ch parser) = some (.inr parser') →
      parser'.header_state.inValue = true := fun h => inValue_contentLengthNum (Option.some.inj h)
  unfold valueByte at h
  dsimp only at h
  split at h
  all_goals
    repeat' split at h
  all_goals first
    | exact hnum h
    | (cases h; done)
    | (cases h; rfl)
    | (cases h; exact hvalue)
    | (cases h; exact matching_good hvalue rfl rfl)

/-- How a loop over a name or a value ends. -/
def Scan.Safe (good : HeaderState → Bool) (parser : HttpParser) : Scan → Prop
  | .stop parser' _ => parser.Keeps parser' ∧ good parser'.header_state = true
  | .error _ => True
  | .faulted => False

theorem Scan.Safe.of_keeps {good : HeaderState → Bool} {parser parser' : HttpParser} {scan : Scan}
    (h : scan.Safe good parser') (hkeeps : parser.Keeps parser') : scan.Safe good parser := by
  cases scan with
  | stop parser'' p => exact ⟨hkeeps.trans h.1, h.2⟩
  | error e => trivial
  | faulted => exact h

theorem scanField_safe {inner : Option Nat} {parser : HttpParser} {start : Bytes}
    (h : parser.header_state.inName = true) :
    (scanField inner parser start).Safe HeaderState.inName parser := by
  fun_induction scanField inner parser start with
  | case1 | case2 | case4 => exact ⟨⟨rfl, rfl, id⟩, h⟩
  | case3 _ _ _ _ _ ih | case5 _ _ _ _ _ _ _ ih => exact ih h
  | case6 _ _ ch _ _ _ _ hnone =>
    obtain ⟨parser', hsome, -⟩ := fieldByte_safe h ch
    rw [hsome] at hnone
    cases hnone
  | case7 _ _ ch _ _ _ _ parser' hbyte ih =>
    obtain ⟨_, hsome, hname⟩ := fieldByte_safe h ch
    rw [hbyte] at hsome
    cases hsome
    exact (ih hname).of_keeps (fieldByte_keeps hbyte)

theorem scanValue_safe {inner : Option Nat} {parser : HttpParser} {start : Bytes}
    (h : parser.header_state.inValue = true) :
    (scanValue inner parser start).Safe HeaderState.inValue parser := by
  fun_induction scanValue inner parser start with
  | case1 | case3 | case6 => exact ⟨⟨rfl, rfl, id⟩, h⟩
  | case2 _ _ _ ih | case5 _ _ _ _ _ _ ih | case8 _ _ _ _ _ _ ih => exact ih h
  | case4 | case7 | case10 => trivial
  | case9 _ ch _ _ _ _ hnone => exact absurd hnone (valueByte_ne_none h ch)
  | case11 _ ch _ _ _ _ parser' hbyte ih =>
    exact (ih (inValue_valueByte h hbyte)).of_keeps (valueByte_keeps hbyte)

/-! ## The loop over the data -/

/-- A length is one of 64 bits. -/
def Vars.Short (v : Vars Bytes) : Prop := v.parser.content_length ≤ ULLONG_MAX

/-- What a turn leaves where the loop goes on. -/
def Flow.Sound (flow : Flow Bytes) : Prop := flow.Safe ∧ flow.Goes Vars.Short

theorem countHeaderSize_sound {n : Nat} {v : Vars Bytes} {k : Vars Bytes → Flow Bytes}
    (h : (k { v with parser := v.parser.addRead n }).Sound) : (countHeaderSize n v k).Sound := by
  unfold countHeaderSize
  dsimp only
  split
  · exact ⟨trivial, trivial⟩
  · exact h

variable {v : Vars Bytes}

theorem headerField_sound (h : v.Marked) (hs : v.parser.state = .s_header_field)
    (hname : v.parser.header_state.inName = true) (hshort : v.Short) (start : Bytes) :
    (headerField start v).1.Sound := by
  have hothers : v.url_mark = none ∧ v.header_value_mark = none ∧ v.body_mark = none := by
    obtain ⟨hurl, -, hvalue, hbody⟩ := h
    rw [hs] at hurl hvalue hbody
    exact ⟨hurl.resolve_right Bool.false_ne_true, hvalue.resolve_right (by decide),
      hbody.resolve_right Bool.false_ne_true⟩
  have hscan : (scanField none v.parser start).Safe HeaderState.inName v.parser :=
    scanField_safe hname
  unfold headerField
  split
  · rename_i heq
    rw [heq] at hscan
    exact hscan.elim
  · exact ⟨trivial, trivial⟩
  · rename_i parser' heq
    rw [heq] at hscan
    obtain ⟨hkeeps, hname'⟩ := hscan
    have hs' : parser'.state = .s_header_field := hkeeps.state.trans hs
    refine countHeaderSize_sound ⟨⟨?_, ?_⟩, hkeeps.length hshort⟩
    · exact ⟨.inl hothers.1, .inr hs', .inl hothers.2.1, .inl hothers.2.2⟩
    · simp only [HttpParser.Stage, HttpParser.addRead, hs']
      exact hname'
  · rename_i parser' ch p heq
    rw [heq] at hscan
    dsimp only
    refine countHeaderSize_sound ?_
    split
    · refine ⟨Vars.Blank.safe (v := Vars.callField _ _) ⟨hothers.1, rfl, hothers.2⟩ trivial, ?_⟩
      exact hscan.1.length hshort
    · exact ⟨trivial, trivial⟩

theorem headerValue_sound (h : v.Marked) (hs : v.parser.state = .s_header_value)
    (hvalue : v.parser.header_state.inValue = true) (hshort : v.Short) (start : Bytes) :
    (headerValue start v).1.Sound := by
  have hothers : v.url_mark = none ∧ v.header_field_mark = none ∧ v.body_mark = none := by
    obtain ⟨hurl, hfield, -, hbody⟩ := h
    rw [hs] at hurl hfield hbody
    exact ⟨hurl.resolve_right Bool.false_ne_true, hfield.resolve_right (by decide),
      hbody.resolve_right Bool.false_ne_true⟩
  have hscan : (scanValue none v.parser start).Safe HeaderState.inValue v.parser :=
    scanValue_safe hvalue
  unfold headerValue
  split
  · rename_i heq
    rw [heq] at hscan
    exact hscan.elim
  · exact ⟨trivial, trivial⟩
  · rename_i parser' heq
    rw [heq] at hscan
    obtain ⟨hkeeps, hvalue'⟩ := hscan
    have hs' : parser'.state = .s_header_value := hkeeps.state.trans hs
    refine countHeaderSize_sound ⟨⟨?_, ?_⟩, hkeeps.length hshort⟩
    · exact ⟨.inl hothers.1, .inl hothers.2.1, .inr hs', .inl hothers.2.2⟩
    · simp only [HttpParser.Stage, HttpParser.addRead, hs']
      exact hvalue'
  · rename_i parser' ch p heq
    rw [heq] at hscan
    dsimp only
    split
    · refine countHeaderSize_sound ⟨?_, hscan.1.length hshort⟩
      exact Vars.Blank.safe (v := { Vars.callValue _ _ with parser := _ })
        ⟨hothers.1, hothers.2.1, rfl, hothers.2.2⟩ trivial
    · dsimp only
      refine countHeaderSize_sound ⟨?_, ?_⟩
      · exact headerAlmostDone_safe (v := Vars.callValue _ _)
          ⟨hothers.1, hothers.2.1, rfl, hothers.2.2⟩
      · unfold headerAlmostDone
        split
        · trivial
        · exact hscan.1.length hshort

theorem bodyIdentity_sound (h : v.OnlyBody) (hs : v.parser.state = .s_body_identity)
    (hzero : v.parser.content_length ≠ 0) (hmax : v.parser.content_length ≠ ULLONG_MAX)
    (hshort : v.Short) (ch : UInt8) (p : Bytes) : (bodyIdentity (ch :: p) v).1.Sound := by
  have hle : v.parser.content_length - min v.parser.content_length (ch :: p).length <
      ULLONG_MAX := by
    unfold Vars.Short at hshort
    omega
  unfold bodyIdentity
  dsimp only
  rw [if_neg (not_or.mpr ⟨hzero, hmax⟩)]
  dsimp only
  split
  · refine ⟨messageDone_safe (v := Vars.callBody _) ⟨h.1, h.2.1, h.2.2, rfl⟩, ?_⟩
    unfold messageDone
    split
    · trivial
    · exact Nat.le_of_lt hle
  · rename_i hleft
    refine ⟨⟨?_, ?_⟩, Nat.le_of_lt hle⟩
    · exact ⟨.inl h.1, .inl h.2.1, .inl h.2.2, .inr (by rw [Vars.markBody, hs]; rfl)⟩
    · simp only [HttpParser.Stage, Vars.markBody, hs]
      exact ⟨hleft, Nat.ne_of_lt hle⟩

theorem chunkData_sound (h : v.OnlyBody) (hs : v.parser.state = .s_chunk_data)
    (hchunked : v.parser.flags.F_CHUNKED = true) (hzero : v.parser.content_length ≠ 0)
    (hmax : v.parser.content_length ≠ ULLONG_MAX) (hshort : v.Short) (ch : UInt8) (p : Bytes) :
    (chunkData (ch :: p) v).1.Sound := by
  have hle : v.parser.content_length - min v.parser.content_length (ch :: p).length <
      ULLONG_MAX := by
    unfold Vars.Short at hshort
    omega
  unfold chunkData
  dsimp only
  rw [if_neg (not_or.mpr ⟨not_not.mpr hchunked, not_or.mpr ⟨hzero, hmax⟩⟩)]
  dsimp only
  split
  · rename_i hleft
    refine ⟨⟨?_, ⟨hchunked, hleft⟩⟩, Nat.le_of_lt hle⟩
    exact ⟨.inl h.1, .inl h.2.1, .inl h.2.2, .inr rfl⟩
  · rename_i hleft
    refine ⟨⟨?_, ?_⟩, Nat.le_of_lt hle⟩
    · exact ⟨.inl h.1, .inl h.2.1, .inl h.2.2, .inr (by rw [Vars.markBody, hs]; rfl)⟩
    · simp only [HttpParser.Stage, Vars.markBody, hs]
      exact ⟨hchunked, hleft, Nat.ne_of_lt hle⟩

/-- **A turn** fails no assertion. -/
theorem turn_sound (h : v.Marked) (hstage : v.parser.Stage 1) (hshort : v.Short) (ch : UInt8)
    (p : Bytes) : (turn ch p v).1.Sound := by
  unfold turn
  split
  · rename_i hs
    simp only [HttpParser.Stage, hs] at hstage
    exact headerField_sound h hs hstage hshort _
  · rename_i hs
    simp only [HttpParser.Stage, hs] at hstage
    exact headerValue_sound h hs hstage hshort _
  · rename_i hs
    simp only [HttpParser.Stage, hs] at hstage
    exact bodyIdentity_sound (h.onlyBody (by rw [hs]; rfl)) hs hstage.1 hstage.2 hshort ch p
  · rename_i hs
    simp only [HttpParser.Stage, hs] at hstage
  · rename_i hs
    simp only [HttpParser.Stage, hs] at hstage
    exact chunkData_sound (h.onlyBody (by rw [hs]; rfl)) hs hstage.1 hstage.2.1 hstage.2.2 hshort
      ch p
  · rename_i hfield hvalue hbody heof hchunk
    refine ⟨switch_safe h hstage hfield hvalue hbody heof hchunk, ?_⟩
    have hlater := switch_later (pointer (ch :: p)) ch v
    revert hlater
    cases switch (pointer (ch :: p)) ch v with
    | next w => exact fun hlater => hlater.length hshort
    | ret | error | faulted => exact id

theorem countByte_stage (hstage : v.parser.Stage 0) : v.countByte.parser.Stage 1 := by
  unfold Vars.countByte
  split
  · cases hs : v.parser.state
    all_goals
      simp only [HttpParser.Stage, HttpParser.addRead, hs] at hstage ⊢
    all_goals first
      | exact hstage
      | exact ⟨hstage.1, by rw [hstage.2]; rfl⟩
  · rename_i hbody
    cases hs : v.parser.state
    all_goals
      rw [hs] at hbody
      simp only [HttpParser.Stage, hs] at hstage ⊢
    all_goals first
      | exact hstage
      | exact absurd rfl hbody

theorem countByte_marked (h : v.Marked) : v.countByte.Marked := by
  unfold Vars.countByte
  split <;> exact h

theorem countByte_short (h : v.Short) : v.countByte.Short := by
  unfold Vars.countByte
  split <;> exact h

theorem loop_safe {data : Bytes} (h : v.Marked) (hstage : v.parser.Stage 0) (hshort : v.Short) :
    loop v data ≠ .faulted := by
  fun_induction loop v data with
  | case1 => exact h.atEnd _
  | case2 => exact Executed.noConfusion
  | case3 v ch p u hfit v' hflow ih =>
    have hsound := turn_sound (countByte_marked h) (countByte_stage hstage) (countByte_short hshort)
      ch p
    rw [hflow] at hsound
    exact ih hsound.1.1 hsound.1.2 hsound.2
  | case4 | case5 => exact Executed.noConfusion
  | case6 v ch p u hfit hflow =>
    have hsound := turn_sound (countByte_marked h) (countByte_stage hstage) (countByte_short hshort)
      ch p
    rw [hflow] at hsound
    exact hsound.1.elim

/-- **No assertion fails**, and no name of a method is read behind its end:
`http_parser_execute` returns, whatever the bytes are and however many. -/
theorem no_assertion_fails (data : Bytes) : httpParserExecute data ≠ .faulted :=
  loop_safe (Vars.Blank.marked ⟨rfl, rfl, rfl, rfl⟩) trivial (Nat.zero_le _)

end LibuvServer.Http
