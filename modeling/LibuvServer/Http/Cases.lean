import LibuvServer.Http.Parser
import Mathlib.Tactic.Common

/-!
# The cases of the parser

Every case for one byte, those that look ahead too. The cases do not look into
marks: what they do on other marks is what they do on these, under a function.
So they also keep what is known of all marks, as long as it holds of the place
they are at. And they only go on: callbacks come in addition, and `nread` is
counted outside.
-/

namespace LibuvServer.Http

open LibuvServer.Netbus

variable {Mark Mark' : Type}

/-! ## One byte -/

/-- A byte in a name. -/
def byteField (place : Place Mark) (ch : UInt8) (v : Vars Mark) : Flow Mark :=
  if TOKEN ch = 0 then
    if ch = chr ':' then .next ((v.update .s_header_value_discard_ws).callField place)
    else .error .INVALID_HEADER_TOKEN v
  else
    match fieldByte ch v.parser with
    | none => .faulted
    | some parser => .next { v with parser := parser }

/-- A byte in a value. -/
def byteValue (place : Place Mark) (ch : UInt8) (v : Vars Mark) : Flow Mark :=
  if ch = CR then .next ((v.update .s_header_almost_done).callValue place)
  else if ch = LF then headerAlmostDone ch ((v.update .s_header_almost_done).callValue place)
  else if ¬ IS_HEADER_CHAR ch then .error .INVALID_HEADER_TOKEN v
  else
    match valueByte ch v.parser with
    | none => .faulted
    | some (.inl e) => .error e v
    | some (.inr parser) => .next { v with parser := parser }

/-- A byte of a body has come. -/
def Vars.readBody (place : Place Mark) (v : Vars Mark) : Vars Mark :=
  let v := v.markBody place
  { v with parser := { v.parser with content_length := v.parser.content_length - 1 } }

def byteBody (place : Place Mark) (v : Vars Mark) : Flow Mark :=
  if v.parser.content_length = 0 ∨ v.parser.content_length = ULLONG_MAX then .faulted
  else if v.parser.content_length = 1 then
    messageDone ((v.readBody place).update .s_message_done).callBody
  else .next (v.readBody place)

def byteChunk (place : Place Mark) (v : Vars Mark) : Flow Mark :=
  if ¬ v.parser.flags.F_CHUNKED ∨ v.parser.content_length = 0 ∨
      v.parser.content_length = ULLONG_MAX then .faulted
  else if v.parser.content_length = 1 then
    .next ((v.readBody place).update .s_chunk_data_almost_done)
  else .next (v.readBody place)

/-- What a byte does in every state. -/
def byteTurn (place : Place Mark) (ch : UInt8) (v : Vars Mark) : Flow Mark :=
  match v.parser.state with
  | .s_header_field => byteField place ch v
  | .s_header_value => byteValue place ch v
  | .s_body_identity => byteBody place v
  | .s_body_identity_eof => .next (v.markBody place)
  | .s_chunk_data => byteChunk place v
  | _ => switch place ch v

/-- Other marks for the same. -/
def Vars.map (f : Mark → Mark') (v : Vars Mark) : Vars Mark' where
  parser := v.parser
  header_field_mark := v.header_field_mark.map f
  header_value_mark := v.header_value_mark.map f
  url_mark := v.url_mark.map f
  body_mark := v.body_mark.map f
  events := v.events

def Flow.map (f : Mark → Mark') : Flow Mark → Flow Mark'
  | .next v => .next (v.map f)
  | .ret v => .ret (v.map f)
  | .error e v => .error e (v.map f)
  | .faulted => .faulted

/-- The same place under a function on marks. -/
structure Place.Agree (f : Mark → Mark') (place : Place Mark) (place' : Place Mark') : Prop where
  here : place'.here = f place.here
  since : ∀ m, place'.since (f m) = place.since m

/-! ## What sets and clears marks -/

section Map

variable {f : Mark → Mark'} {place : Place Mark} {place' : Place Mark'} {v : Vars Mark}
  {ch : UInt8}

theorem Vars.parser_map : (v.map f).parser = v.parser := rfl

theorem Vars.map_update {s : State} : (v.map f).update s = (v.update s).map f := rfl

variable (h : place.Agree f place')

include h

theorem Vars.map_markUrl : (v.map f).markUrl place' = (v.markUrl place).map f := by
  rw [Vars.markUrl, Vars.markUrl, h.here, Vars.map, Vars.map]
  cases v.url_mark <;> rfl

theorem Vars.map_markField : (v.map f).markField place' = (v.markField place).map f := by
  rw [Vars.markField, Vars.markField, h.here, Vars.map, Vars.map]
  cases v.header_field_mark <;> rfl

theorem Vars.map_markValue : (v.map f).markValue place' = (v.markValue place).map f := by
  rw [Vars.markValue, Vars.markValue, h.here, Vars.map, Vars.map]
  cases v.header_value_mark <;> rfl

theorem Vars.map_markBody : (v.map f).markBody place' = (v.markBody place).map f := by
  rw [Vars.markBody, Vars.markBody, h.here, Vars.map, Vars.map]
  cases v.body_mark <;> rfl

theorem Vars.map_callField : (v.map f).callField place' = (v.callField place).map f := by
  rw [Vars.callField, Vars.callField, Vars.map, Vars.map]
  cases v.header_field_mark with
  | none => rfl
  | some m => simp only [Option.map_some, h.since, Option.map_none]

theorem Vars.map_callValue : (v.map f).callValue place' = (v.callValue place).map f := by
  rw [Vars.callValue, Vars.callValue, Vars.map, Vars.map]
  cases v.header_value_mark with
  | none => rfl
  | some m => simp only [Option.map_some, h.since, Option.map_none]

end Map

/-! ## The cases -/

section Cases

variable {f : Mark → Mark'} {place : Place Mark} {place' : Place Mark'} {v : Vars Mark}
  {ch : UInt8}

theorem startReq_map : startReq ch (v.map f) = (startReq ch v).map f := by
  unfold startReq
  split
  · rfl
  · dsimp only
    split
    · rfl
    · split <;> rfl

theorem reqMethod_map : reqMethod ch (v.map f) = (reqMethod ch v).map f := by
  unfold reqMethod
  split
  · rfl
  · rw [Vars.map]
    cases v.parser.method.matcher v.parser.index with
    | none => rfl
    | some x =>
      dsimp only
      split
      · rfl
      · split
        · rfl
        · split
          · cases v.parser.method.change v.parser.index ch <;> rfl
          · rfl

theorem urlChar_map : urlChar ch (v.map f) = (urlChar ch v).map f := by
  simp only [urlChar, apply_ite (Flow.map f)]
  rfl

theorem reqSpacesBeforeUrl_map (h : place.Agree f place') :
    reqSpacesBeforeUrl place' ch (v.map f) = (reqSpacesBeforeUrl place ch v).map f := by
  simp only [reqSpacesBeforeUrl, Vars.map_markUrl h, apply_ite (Flow.map f), ← urlChar_map,
    apply_ite (Vars.map f)]
  rfl

theorem reqSchema_map : reqSchema ch (v.map f) = (reqSchema ch v).map f := by
  simp only [reqSchema, apply_ite (Flow.map f), urlChar_map]
  rfl

theorem reqUrl_map : reqUrl ch (v.map f) = (reqUrl ch v).map f := by
  simp only [reqUrl, apply_ite (Flow.map f), urlChar_map]
  rfl

theorem reqHttpStart_map : reqHttpStart ch (v.map f) = (reqHttpStart ch v).map f := by
  simp only [reqHttpStart, apply_ite (Flow.map f)]
  rfl

theorem messageDone_map : messageDone (v.map f) = (messageDone v).map f := by
  simp only [messageDone, apply_ite (Flow.map f)]
  rfl

theorem headersDone_map : headersDone ch (v.map f) = (headersDone ch v).map f := by
  simp only [headersDone, apply_ite (Flow.map f)]
  rfl

theorem headersAlmostDone_map :
    headersAlmostDone ch (v.map f) = (headersAlmostDone ch v).map f := by
  simp only [headersAlmostDone, apply_ite (Flow.map f), ← messageDone_map, ← headersDone_map]
  rfl

theorem headerFieldStart_map (h : place.Agree f place') :
    headerFieldStart place' ch (v.map f) = (headerFieldStart place ch v).map f := by
  simp only [headerFieldStart, apply_ite (Flow.map f), Vars.map_markField h,
    ← headersAlmostDone_map]
  rfl

theorem headerValueStart_map (h : place.Agree f place') :
    headerValueStart place' ch (v.map f) = (headerValueStart place ch v).map f := by
  simp only [headerValueStart, Vars.map_markValue h]
  rw [Vars.map]
  cases valueStart ch _ <;> rfl

theorem headerValueDiscardWs_map (h : place.Agree f place') :
    headerValueDiscardWs place' ch (v.map f) = (headerValueDiscardWs place ch v).map f := by
  simp only [headerValueDiscardWs, apply_ite (Flow.map f), headerValueStart_map h]
  rfl

theorem headerValueLws_map (h : place.Agree f place') :
    headerValueLws place' ch (v.map f) = (headerValueLws place ch v).map f := by
  by_cases hfold : v.parser.header_state = .h_content_length_num
  · have hfold' : (v.map f).parser.header_state = .h_content_length_num := hfold
    simp only [headerValueLws, apply_ite (Flow.map f), ← headerValueStart_map h,
      ← headerFieldStart_map h, if_pos hfold, if_pos hfold']
    rfl
  · have hfold' : ¬ (v.map f).parser.header_state = .h_content_length_num := hfold
    simp only [headerValueLws, apply_ite (Flow.map f), ← headerValueStart_map h,
      ← headerFieldStart_map h, if_neg hfold, if_neg hfold']
    rfl

theorem headerAlmostDone_map : headerAlmostDone ch (v.map f) = (headerAlmostDone ch v).map f := by
  simp only [headerAlmostDone, apply_ite (Flow.map f)]
  rfl

theorem headerValueDiscardLws_map (h : place.Agree f place') :
    headerValueDiscardLws place' ch (v.map f) = (headerValueDiscardLws place ch v).map f := by
  simp only [headerValueDiscardLws, apply_ite (Flow.map f), ← headerFieldStart_map h,
    ← Vars.map_callValue h, ← Vars.map_update, ← Vars.map_markValue h]
  rfl

theorem chunkSizeStart_map : chunkSizeStart ch (v.map f) = (chunkSizeStart ch v).map f := by
  simp only [chunkSizeStart, apply_ite (Flow.map f)]
  cases unhex ch <;> rfl

theorem chunkSize_map : chunkSize ch (v.map f) = (chunkSize ch v).map f := by
  simp only [chunkSize, apply_ite (Flow.map f)]
  cases unhex ch with
  | none => simp only [apply_ite (Flow.map f)]; rfl
  | some n => simp only [apply_ite (Flow.map f)]; rfl

theorem chunkParameters_map : chunkParameters ch (v.map f) = (chunkParameters ch v).map f := by
  simp only [chunkParameters, apply_ite (Flow.map f)]
  rfl

theorem chunkSizeAlmostDone_map :
    chunkSizeAlmostDone ch (v.map f) = (chunkSizeAlmostDone ch v).map f := by
  simp only [chunkSizeAlmostDone, apply_ite (Flow.map f)]
  rfl

theorem chunkDataAlmostDone_map :
    chunkDataAlmostDone ch (v.map f) = (chunkDataAlmostDone ch v).map f := by
  simp only [chunkDataAlmostDone, apply_ite (Flow.map f)]
  rfl

theorem chunkDataDone_map : chunkDataDone ch (v.map f) = (chunkDataDone ch v).map f := by
  simp only [chunkDataDone, apply_ite (Flow.map f)]
  rfl

theorem expect_map {ok : Prop} [Decidable ok] {s : State} :
    (v.map f).expect ok s = (v.expect ok s).map f := by
  simp only [Vars.expect, apply_ite (Flow.map f)]
  rfl

/-- **The `switch`** says nothing else about other marks. -/
theorem switch_map (h : place.Agree f place') :
    switch place' ch (v.map f) = (switch place ch v).map f := by
  unfold switch
  rw [Vars.parser_map]
  cases v.parser.state with
  | s_dead => simp only [apply_ite (Flow.map f)]; rfl
  | s_start_req => exact startReq_map
  | s_req_method => exact reqMethod_map
  | s_req_spaces_before_url => exact reqSpacesBeforeUrl_map h
  | s_req_schema | s_req_schema_slash | s_req_schema_slash_slash | s_req_server_start =>
    exact reqSchema_map
  | s_req_server | s_req_server_with_at | s_req_path | s_req_query_string_start
  | s_req_query_string | s_req_fragment_start | s_req_fragment => exact reqUrl_map
  | s_req_http_start => exact reqHttpStart_map
  | s_req_http_H | s_req_http_HT | s_req_http_HTT | s_req_http_I | s_req_http_IC
  | s_req_http_HTTP | s_header_value_discard_ws_almost_done => exact expect_map
  | s_req_http_major => simp only [reqHttpMajor, apply_ite (Flow.map f)]; rfl
  | s_req_http_dot => simp only [reqHttpDot, apply_ite (Flow.map f)]; rfl
  | s_req_http_minor => simp only [reqHttpMinor, apply_ite (Flow.map f)]; rfl
  | s_req_http_end => simp only [reqHttpEnd, apply_ite (Flow.map f)]; rfl
  | s_req_line_almost_done => simp only [reqLineAlmostDone, apply_ite (Flow.map f)]; rfl
  | s_header_field_start => exact headerFieldStart_map h
  | s_header_value_discard_ws => exact headerValueDiscardWs_map h
  | s_header_value_discard_lws => exact headerValueDiscardLws_map h
  | s_header_value_start => exact headerValueStart_map h
  | s_header_value_lws => exact headerValueLws_map h
  | s_header_almost_done => exact headerAlmostDone_map
  | s_chunk_size_start => exact chunkSizeStart_map
  | s_chunk_size => exact chunkSize_map
  | s_chunk_parameters => exact chunkParameters_map
  | s_chunk_size_almost_done => exact chunkSizeAlmostDone_map
  | s_headers_almost_done => exact headersAlmostDone_map
  | s_headers_done => exact headersDone_map
  | s_chunk_data_almost_done => exact chunkDataAlmostDone_map
  | s_chunk_data_done => exact chunkDataDone_map
  | s_message_done => exact messageDone_map
  | s_header_field | s_header_value | s_chunk_data | s_body_identity | s_body_identity_eof => rfl

theorem byteField_map (h : place.Agree f place') :
    byteField place' ch (v.map f) = (byteField place ch v).map f := by
  unfold byteField
  split
  · split
    · rw [Vars.map_update, Vars.map_callField h]
      rfl
    · rfl
  · rw [Vars.parser_map]
    cases fieldByte ch v.parser <;> rfl

theorem byteValue_map (h : place.Agree f place') :
    byteValue place' ch (v.map f) = (byteValue place ch v).map f := by
  unfold byteValue
  split
  · rw [Vars.map_update, Vars.map_callValue h]
    rfl
  · split
    · rw [Vars.map_update, Vars.map_callValue h, headerAlmostDone_map]
    · split
      · rfl
      · rw [Vars.parser_map]
        cases valueByte ch v.parser with
        | none => rfl
        | some parser => cases parser <;> rfl

theorem Vars.map_readBody (h : place.Agree f place') :
    (v.map f).readBody place' = (v.readBody place).map f := by
  rw [Vars.readBody, Vars.readBody, Vars.map_markBody h]
  rfl

theorem byteBody_map (h : place.Agree f place') :
    byteBody place' (v.map f) = (byteBody place v).map f := by
  simp only [byteBody, apply_ite (Flow.map f), ← messageDone_map, Vars.map_readBody h]
  rfl

theorem byteChunk_map (h : place.Agree f place') :
    byteChunk place' (v.map f) = (byteChunk place v).map f := by
  simp only [byteChunk, apply_ite (Flow.map f), Vars.map_readBody h]
  rfl

theorem byteTurn_map (h : place.Agree f place') :
    byteTurn place' ch (v.map f) = (byteTurn place ch v).map f := by
  unfold byteTurn
  rw [Vars.parser_map]
  split
  · exact byteField_map h
  · exact byteValue_map h
  · exact byteBody_map h
  · rw [Vars.map_markBody h]
    rfl
  · exact byteChunk_map h
  · exact switch_map h

end Cases

/-! ## What is known of all marks -/

/-- All marks have the property. -/
structure Vars.Marks (P : Mark → Prop) (v : Vars Mark) : Prop where
  header_field_mark : ∀ m ∈ v.header_field_mark, P m
  header_value_mark : ∀ m ∈ v.header_value_mark, P m
  url_mark : ∀ m ∈ v.url_mark, P m
  body_mark : ∀ m ∈ v.body_mark, P m

section Marks

variable {P Q : Mark → Prop} {v : Vars Mark}

theorem Vars.Marks.mono (h : v.Marks P) (hPQ : ∀ m, P m → Q m) : v.Marks Q :=
  ⟨fun m hm => hPQ m (h.header_field_mark m hm), fun m hm => hPQ m (h.header_value_mark m hm),
    fun m hm => hPQ m (h.url_mark m hm), fun m hm => hPQ m (h.body_mark m hm)⟩

/-- Functions that agree where the property holds. -/
theorem Vars.Marks.map_congr {f g : Mark → Mark'} (h : v.Marks P) (hfg : ∀ m, P m → f m = g m) :
    v.map f = v.map g := by
  have hmap : ∀ mark : Option Mark, (∀ m ∈ mark, P m) → mark.map f = mark.map g :=
    fun mark hmark => Option.map_congr fun m hm => hfg m (hmark m hm)
  rw [Vars.map, Vars.map, hmap _ h.header_field_mark, hmap _ h.header_value_mark,
    hmap _ h.url_mark, hmap _ h.body_mark]

theorem Vars.map_map {Mark'' : Type} (f : Mark → Mark') (g : Mark' → Mark'') (v : Vars Mark) :
    (v.map f).map g = v.map (g ∘ f) := by
  simp only [Vars.map, Option.map_map]

theorem Vars.Marks.of_map (v : Vars {m // P m}) : (v.map Subtype.val).Marks P := by
  have hmap : ∀ mark : Option {m // P m}, ∀ m ∈ mark.map Subtype.val, P m := by
    intro mark m hm
    obtain ⟨m', -, rfl⟩ := Option.map_eq_some_iff.mp hm
    exact m'.2
  exact ⟨hmap _, hmap _, hmap _, hmap _⟩

theorem Vars.Marks.exists_map (h : v.Marks P) : ∃ v' : Vars {m // P m}, v'.map Subtype.val = v := by
  have hmap : ∀ mark : Option Mark, (∀ m ∈ mark, P m) →
      ∃ mark' : Option {m // P m}, mark'.map Subtype.val = mark := by
    intro mark hmark
    cases mark with
    | none => exact ⟨none, rfl⟩
    | some m => exact ⟨some ⟨m, hmark m rfl⟩, rfl⟩
  obtain ⟨a, ha⟩ := hmap _ h.header_field_mark
  obtain ⟨b, hb⟩ := hmap _ h.header_value_mark
  obtain ⟨c, hc⟩ := hmap _ h.url_mark
  obtain ⟨d, hd⟩ := hmap _ h.body_mark
  refine ⟨⟨v.parser, a, b, c, d, v.events⟩, ?_⟩
  rw [Vars.map, ha, hb, hc, hd]

/-- A mark that is left was there, or is set at the place. -/
theorem byteTurn_marks {place : Place Mark} {ch : UInt8} (h : v.Marks P) (hplace : P place.here)
    {v' : Vars Mark} (hflow : byteTurn place ch v = .next v') : v'.Marks P := by
  obtain ⟨w, rfl⟩ := h.exists_map
  -- on marks that have the property the same is done
  let inside : Place {m // P m} := ⟨⟨place.here, hplace⟩, fun m => place.since m⟩
  have hagree : inside.Agree Subtype.val place := ⟨rfl, fun _ => rfl⟩
  rw [byteTurn_map hagree] at hflow
  cases hcase : byteTurn inside ch w with
  | next w' =>
    rw [hcase] at hflow
    cases hflow
    exact .of_map w'
  | ret w' | error e w' | faulted =>
    rw [hcase] at hflow
    cases hflow

end Marks

/-! ## What goes on -/

/-- What holds when the loop goes on. -/
def Flow.Goes {Mark : Type} (P : Vars Mark → Prop) : Flow Mark → Prop
  | .next v => P v
  | _ => True

/-- `nread` is kept or starts again, a length stays one of 64 bits, callbacks come
behind those there were, and a value is kept until it is reported. -/
structure Vars.Later {Mark : Type} (v : Vars Mark) (place : Place Mark) (v' : Vars Mark) :
    Prop where
  nread : v'.parser.nread = v.parser.nread ∨ v'.parser.nread = 0
  length : v.parser.content_length ≤ ULLONG_MAX → v'.parser.content_length ≤ ULLONG_MAX
  events : v.events <+: v'.events
  value : ∀ m, v.header_value_mark = some m →
    v'.header_value_mark = some m ∨ .headerValue (place.since m) ∈ v'.events

section Later

variable {Mark : Type} {v w v' : Vars Mark} {place : Place Mark} {ch : UInt8}

theorem Vars.Later.same (hnread : v'.parser.nread = v.parser.nread)
    (hlength : v'.parser.content_length = v.parser.content_length)
    (hevents : v'.events = v.events) (hvalue : v'.header_value_mark = v.header_value_mark) :
    v.Later place v' :=
  ⟨.inl hnread, fun h => hlength ▸ h, hevents ▸ List.prefix_refl _, fun _ hm => .inl (hvalue ▸ hm)⟩

theorem Vars.Later.trans (h : v.Later place w) (h' : w.Later place v') : v.Later place v' := by
  refine ⟨?_, fun hv => h'.length (h.length hv), h.events.trans h'.events, fun m hm => ?_⟩
  · rcases h'.nread with hsame | hzero
    · rw [hsame]
      exact h.nread
    · exact .inr hzero
  · rcases h.value m hm with hkept | htold
    · exact h'.value m hkept
    · exact .inr (h'.events.subset htold)

theorem Flow.Goes.later {flow : Flow Mark} (h : flow.Goes (w.Later place)) (hv : v.Later place w) :
    flow.Goes (v.Later place) := by
  cases flow with
  | next v' => exact hv.trans h
  | ret | error | faulted => trivial

theorem messageDone_later : (messageDone v).Goes (v.Later place) := by
  unfold messageDone
  split
  · trivial
  · exact ⟨.inl rfl, id, List.prefix_append .., fun _ hm => .inl hm⟩

theorem headersDone_later : (headersDone ch v).Goes (v.Later place) := by
  unfold headersDone
  split
  · trivial
  · dsimp only
    repeat' split
    all_goals first
      | trivial
      | exact ⟨.inr rfl, id, List.prefix_refl _, fun _ hm => .inl hm⟩
      | exact ⟨.inr rfl, id, List.prefix_append .., fun _ hm => .inl hm⟩

theorem headersAlmostDone_later : (headersAlmostDone ch v).Goes (v.Later place) := by
  unfold headersAlmostDone
  split
  · trivial
  · dsimp only
    split
    · exact messageDone_later.later (.same rfl rfl rfl rfl)
    · split
      · trivial
      · exact headersDone_later.later (.same rfl rfl rfl rfl)

theorem headerFieldStart_later : (headerFieldStart place ch v).Goes (v.Later place) := by
  unfold headerFieldStart
  split
  · exact .same rfl rfl rfl rfl
  · split
    · exact headersAlmostDone_later.later (.same rfl rfl rfl rfl)
    · split
      · trivial
      · exact .same rfl rfl rfl rfl

/-- What a byte of a header keeps in the parser. -/
structure HttpParser.Keeps (parser parser' : HttpParser) : Prop where
  state : parser'.state = parser.state
  nread : parser'.nread = parser.nread
  length : parser.content_length ≤ ULLONG_MAX → parser'.content_length ≤ ULLONG_MAX

theorem HttpParser.Keeps.trans {parser parser' parser'' : HttpParser} (h : parser.Keeps parser')
    (h' : parser'.Keeps parser'') : parser.Keeps parser'' :=
  ⟨h'.state.trans h.state, h'.nread.trans h.nread, fun hle => h'.length (h.length hle)⟩

theorem Vars.Later.of_keeps (h : v.parser.Keeps v'.parser) (hevents : v'.events = v.events)
    (hvalue : v'.header_value_mark = v.header_value_mark) : v.Later place v' :=
  ⟨.inl h.nread, h.length, hevents ▸ List.prefix_refl _, fun _ hm => .inl (hvalue ▸ hm)⟩

theorem digit_le (h : IS_NUM ch = true) : ch.toNat - 48 ≤ 9 := by
  obtain ⟨-, hle⟩ := Bool.and_eq_true_iff.mp h
  have hle' : ch.toNat ≤ 57 := of_decide_eq_true hle
  omega

theorem valueStart_keeps {parser parser' : HttpParser} (h : valueStart ch parser = .inr parser') :
    parser.Keeps parser' := by
  unfold valueStart at h
  dsimp only at h
  split at h
  case h_3 =>
    split at h
    · cases h
    · rename_i hnum
      split at h
      · cases h
      · cases h
        have hle := digit_le (not_not.mp hnum)
        exact ⟨rfl, rfl, fun _ => Nat.le_trans hle (by decide)⟩
  all_goals
    cases h
    exact ⟨rfl, rfl, id⟩

theorem markValue_later : v.Later place (v.markValue place) := by
  refine ⟨.inl rfl, id, List.prefix_refl _, fun m hm => .inl ?_⟩
  rw [Vars.markValue, hm]
  rfl

theorem callField_later : v.Later place (v.callField place) :=
  ⟨.inl rfl, id, List.prefix_append .., fun _ hm => .inl hm⟩

theorem callValue_later : v.Later place (v.callValue place) := by
  refine ⟨.inl rfl, id, List.prefix_append .., fun m hm => .inr ?_⟩
  rw [Vars.callValue, hm]
  exact List.mem_append_right _ List.mem_cons_self

theorem headerValueStart_later : (headerValueStart place ch v).Goes (v.Later place) := by
  unfold headerValueStart
  dsimp only
  split
  · trivial
  · rename_i hstart
    have hv : (v.markValue place).Later place { v.markValue place with
      parser := { v.parser with state := .s_header_value, index := 0 } } := .same rfl rfl rfl rfl
    exact (markValue_later.trans hv).trans (.of_keeps (valueStart_keeps hstart) rfl rfl)

theorem fieldByte_keeps {parser parser' : HttpParser} (h : fieldByte ch parser = some parser') :
    parser.Keeps parser' := by
  obtain ⟨h', -, rfl⟩ := Option.map_eq_some_iff.mp h
  exact ⟨rfl, rfl, id⟩

theorem contentLengthNum_keeps {parser parser' : HttpParser}
    (h : contentLengthNum ch parser = .inr parser') : parser.Keeps parser' := by
  unfold contentLengthNum at h
  split at h
  · cases h
    exact ⟨rfl, rfl, id⟩
  · split at h
    · cases h
    · rename_i hnum
      have hle := digit_le (not_not.mp hnum)
      split at h
      · cases h
      · cases h
        refine ⟨rfl, rfl, fun _ => ?_⟩
        unfold ULLONG_MAX at *
        dsimp only
        omega

theorem valueByte_keeps {parser parser' : HttpParser}
    (h : valueByte ch parser = some (.inr parser')) : parser.Keeps parser' := by
  have hnum : some (contentLengthNum ch parser) = some (.inr parser') →
      parser.Keeps parser' := fun h => contentLengthNum_keeps (Option.some.inj h)
  unfold valueByte at h
  dsimp only at h
  split at h
  all_goals
    repeat' split at h
  all_goals first
    | exact hnum h
    | (cases h; done)
    | (cases h; exact ⟨rfl, rfl, id⟩)

theorem headerValueLws_later : (headerValueLws place ch v).Goes (v.Later place) := by
  unfold headerValueLws
  split
  · refine headerValueStart_later.later (.same ?_ ?_ ?_ ?_) <;> split <;> rfl
  · exact headerFieldStart_later.later (.same rfl rfl rfl rfl)

theorem headerValueDiscardLws_later : (headerValueDiscardLws place ch v).Goes (v.Later place) := by
  unfold headerValueDiscardLws
  split
  · exact .same rfl rfl rfl rfl
  · split
    · trivial
    · refine headerFieldStart_later.later (.trans ?_ callValue_later)
      exact (Vars.Later.same rfl rfl rfl rfl).trans (markValue_later.trans (.same rfl rfl rfl rfl))

theorem urlChar_later : (urlChar ch v).Goes (v.Later place) := by
  unfold urlChar
  dsimp only
  split
  · trivial
  · exact .same rfl rfl rfl rfl

theorem reqMethod_later : (reqMethod ch v).Goes (v.Later place) := by
  unfold reqMethod
  repeat' split
  all_goals first
    | trivial
    | exact .same rfl rfl rfl rfl

theorem unhex_le {n : Nat} (h : unhex ch = some n) : n ≤ 15 := by
  unfold unhex at h
  split at h
  · rename_i hnum
    cases h
    exact Nat.le_trans (digit_le hnum) (by decide)
  · split at h
    · rename_i hcap
      cases h
      have hle : ch.toNat ≤ 70 := hcap.2
      omega
    · split at h
      · rename_i hsmall
        cases h
        have hle : ch.toNat ≤ 102 := hsmall.2
        omega
      · split at h
        · cases h
          exact Nat.zero_le _
        · cases h

theorem startReq_later : (startReq ch v).Goes (v.Later place) := by
  unfold startReq
  split
  · exact .same rfl rfl rfl rfl
  · dsimp only
    split
    · trivial
    · split
      · trivial
      · exact ⟨.inl rfl, fun _ => Nat.le_refl _, List.prefix_refl _, fun _ hm => .inl hm⟩

theorem chunkSizeStart_later : (chunkSizeStart ch v).Goes (v.Later place) := by
  unfold chunkSizeStart
  split
  · trivial
  · split
    · trivial
    · rename_i hhex
      exact ⟨.inl rfl, fun _ => Nat.le_trans (unhex_le hhex) (by decide), List.prefix_refl _,
        fun _ hm => .inl hm⟩

theorem chunkSize_later : (chunkSize ch v).Goes (v.Later place) := by
  unfold chunkSize
  split
  · trivial
  · split
    · exact .same rfl rfl rfl rfl
    · split
      · split
        · exact .same rfl rfl rfl rfl
        · trivial
      · rename_i hhex
        have hle := unhex_le hhex
        split
        · trivial
        · refine ⟨.inl rfl, fun _ => ?_, List.prefix_refl _, fun _ hm => .inl hm⟩
          unfold ULLONG_MAX at *
          dsimp only
          omega

/-- **The `switch`** keeps on. -/
theorem switch_later (place : Place Mark) (ch : UInt8) (v : Vars Mark) :
    (switch place ch v).Goes (v.Later place) := by
  unfold switch
  cases v.parser.state with
  | s_start_req => exact startReq_later
  | s_req_method => exact reqMethod_later
  | s_req_spaces_before_url =>
    dsimp only [reqSpacesBeforeUrl]
    split
    · exact .same rfl rfl rfl rfl
    · refine urlChar_later.later (.same ?_ ?_ ?_ ?_) <;> split <;> rfl
  | s_req_schema | s_req_schema_slash | s_req_schema_slash_slash | s_req_server_start =>
    dsimp only [reqSchema]
    split
    · trivial
    · exact urlChar_later
  | s_req_server | s_req_server_with_at | s_req_path | s_req_query_string_start
  | s_req_query_string | s_req_fragment_start | s_req_fragment =>
    dsimp only [reqUrl]
    split
    · exact .same rfl rfl rfl rfl
    · split
      · exact .same rfl rfl rfl rfl
      · exact urlChar_later
  | s_header_field_start => exact headerFieldStart_later
  | s_header_value_discard_ws =>
    dsimp only [headerValueDiscardWs]
    split
    · exact .same rfl rfl rfl rfl
    · split
      · exact .same rfl rfl rfl rfl
      · split
        · exact .same rfl rfl rfl rfl
        · exact headerValueStart_later
  | s_header_value_discard_lws => exact headerValueDiscardLws_later
  | s_header_value_start => exact headerValueStart_later
  | s_header_value_lws => exact headerValueLws_later
  | s_headers_almost_done => exact headersAlmostDone_later
  | s_headers_done => exact headersDone_later
  | s_chunk_size_start => exact chunkSizeStart_later
  | s_chunk_size => exact chunkSize_later
  | s_message_done => exact messageDone_later
  | _ =>
    dsimp only [reqHttpStart, Vars.expect, reqHttpMajor, reqHttpDot, reqHttpMinor, reqHttpEnd,
      reqLineAlmostDone, headerAlmostDone, chunkParameters, chunkSizeAlmostDone,
      chunkDataAlmostDone, chunkDataDone]
    repeat' split
    all_goals first
      | trivial
      | exact .same rfl rfl rfl rfl
      | exact ⟨.inr rfl, id, List.prefix_refl _, fun _ hm => .inl hm⟩

theorem readBody_later : v.Later place (v.readBody place) :=
  ⟨.inl rfl, fun h => Nat.le_trans (Nat.sub_le _ _) h, List.prefix_refl _, fun _ hm => .inl hm⟩

theorem byteField_later : (byteField place ch v).Goes (v.Later place) := by
  unfold byteField
  split
  · split
    · exact callField_later.trans (.same rfl rfl rfl rfl)
    · trivial
  · split
    · trivial
    · rename_i hfield
      exact .of_keeps (fieldByte_keeps hfield) rfl rfl

theorem byteValue_later : (byteValue place ch v).Goes (v.Later place) := by
  unfold byteValue
  split
  · exact callValue_later.trans (.same rfl rfl rfl rfl)
  · split
    · unfold headerAlmostDone
      split
      · trivial
      · exact callValue_later.trans (.same rfl rfl rfl rfl)
    · split
      · trivial
      · split
        · trivial
        · trivial
        · rename_i hvalue
          exact .of_keeps (valueByte_keeps hvalue) rfl rfl

/-- **A byte** keeps on. -/
theorem byteTurn_later (place : Place Mark) (ch : UInt8) (v : Vars Mark) :
    (byteTurn place ch v).Goes (v.Later place) := by
  unfold byteTurn
  split
  · exact byteField_later
  · exact byteValue_later
  · unfold byteBody
    split
    · trivial
    · split
      · exact messageDone_later.later (readBody_later.trans (.same rfl rfl rfl rfl))
      · exact readBody_later
  · exact .same rfl rfl rfl rfl
  · unfold byteChunk
    split
    · trivial
    · split
      · exact readBody_later.trans (.same rfl rfl rfl rfl)
      · exact readBody_later
  · exact switch_later place ch v

end Later

end LibuvServer.Http
