import LibuvServer.Http.Requests
import Mathlib.Tactic.Common

/-!
# Header lines

A header of a request, from its name to the end of its line. While a name is
read, `header_state` and `index` say how far it is one of the names that
announce a body; so a line with another name leaves the parser where it was.
-/

namespace LibuvServer.Http

open LibuvServer.Netbus

/-! ## Names -/

/-- What `header_state` and `index` say of the small letters of a name. -/
def Tracks (t : Bytes) : HeaderState → Nat → Prop
  | .h_general, _ | .h_matching_connection, _ | .h_matching_proxy_connection, _
  | .h_matching_upgrade, _ | .h_connection, _ | .h_upgrade, _ => True
  | .h_C, n => n = 0 ∧ t = CONTENT_LENGTH.take 1
  | .h_CO, n => n = 1 ∧ t = CONTENT_LENGTH.take 2
  | .h_CON, n => n = 2 ∧ t = CONTENT_LENGTH.take 3
  | .h_matching_content_length, n => n + 1 < CONTENT_LENGTH.length ∧ t = CONTENT_LENGTH.take (n + 1)
  | .h_content_length, _ => t = CONTENT_LENGTH
  | .h_matching_transfer_encoding, n =>
    n + 1 < TRANSFER_ENCODING.length ∧ t = TRANSFER_ENCODING.take (n + 1)
  | .h_transfer_encoding, _ => t = TRANSFER_ENCODING
  | _, _ => False

/-- Matching a word goes on, ends or fails. -/
theorem matching_cases (word : Bytes) (index : Nat) {c : UInt8} (now found other : HeaderState)
    (hc : c ≠ 0) :
    matching word index c now found other = other ∨
      (word.take (index + 1) = word.take index ++ [c] ∧ index < word.length ∧
        (matching word index c now found other = found ∧ index + 1 = word.length ∨
          matching word index c now found other = now ∧ index + 1 < word.length)) := by
  unfold matching
  split
  · exact .inl rfl
  · rename_i hmatch
    rw [not_or, not_not] at hmatch
    obtain ⟨hle, hword⟩ := hmatch
    have hlt : index < word.length := by
      by_contra hge
      have heq : index = word.length := by omega
      rw [heq, List.getD_eq_getElem?_getD, List.getElem?_append_right (Nat.le_refl _),
        Nat.sub_self] at hword
      exact hc hword
    have hget : word[index] = c := by
      rw [hword, List.getD_eq_getElem?_getD, List.getElem?_append_left hlt,
        List.getElem?_eq_getElem hlt]
      rfl
    refine .inr ⟨?_, hlt, ?_⟩
    · rw [← hget, List.take_append_getElem hlt]
    · split
      · exact .inl ⟨rfl, by omega⟩
      · exact .inr ⟨rfl, by omega⟩

theorem counted_eq {h : HeaderState} {n : Nat} (hcounts : h.counts = true) (hn : n < 100) :
    h.counted n = n + 1 := by
  rw [HeaderState.counted, if_pos hcounts, Nat.mod_eq_of_lt (by omega)]

theorem Tracks.start {c : UInt8} : Tracks [c] (fieldStart c) 0 := by
  unfold fieldStart
  split
  · rename_i h
    subst h
    exact ⟨rfl, by decide +kernel⟩
  · split
    · trivial
    · split
      · rename_i h
        subst h
        exact ⟨by decide +kernel, by decide +kernel⟩
      · split <;> trivial

theorem Tracks.step {t : Bytes} {h : HeaderState} {n : Nat} {ch c : UInt8} (ht : Tracks t h n)
    (hc : c ≠ 0) (hch : ch ≠ chr ' ') :
    ∃ h', fieldState h (h.counted n) ch c = some h' ∧ Tracks (t ++ [c]) h' (h.counted n) := by
  have hlength : CONTENT_LENGTH.length = 14 := by decide +kernel
  have hencoding : TRANSFER_ENCODING.length = 17 := by decide +kernel
  cases h with
  | h_general => exact ⟨_, rfl, trivial⟩
  | h_C =>
    obtain ⟨rfl, rfl⟩ := ht
    refine ⟨_, rfl, ?_⟩
    split
    · rename_i ho
      subst ho
      exact ⟨rfl, by decide +kernel⟩
    · trivial
  | h_CO =>
    obtain ⟨rfl, rfl⟩ := ht
    refine ⟨_, rfl, ?_⟩
    split
    · rename_i hn
      subst hn
      exact ⟨rfl, by decide +kernel⟩
    · trivial
  | h_CON =>
    obtain ⟨rfl, rfl⟩ := ht
    refine ⟨_, rfl, ?_⟩
    split
    · trivial
    · split
      · rename_i ht
        subst ht
        exact ⟨by decide +kernel, by decide +kernel⟩
      · trivial
  | h_matching_content_length =>
    obtain ⟨hn, rfl⟩ := ht
    have hcounted : HeaderState.h_matching_content_length.counted n = n + 1 :=
      counted_eq rfl (by omega)
    rw [hcounted]
    refine ⟨_, rfl, ?_⟩
    rcases matching_cases CONTENT_LENGTH (n + 1) .h_matching_content_length
      .h_content_length .h_general hc with hother | ⟨htake, hlt, ⟨hfound, hend⟩ | ⟨hnow, hmore⟩⟩
    · rw [hother]
      trivial
    · rw [hfound]
      show _ = CONTENT_LENGTH
      rw [← htake, hend, List.take_length]
    · rw [hnow]
      exact ⟨hmore, htake.symm⟩
  | h_matching_transfer_encoding =>
    obtain ⟨hn, rfl⟩ := ht
    have hcounted : HeaderState.h_matching_transfer_encoding.counted n = n + 1 :=
      counted_eq rfl (by omega)
    rw [hcounted]
    refine ⟨_, rfl, ?_⟩
    rcases matching_cases TRANSFER_ENCODING (n + 1) .h_matching_transfer_encoding
      .h_transfer_encoding .h_general hc with hother | ⟨htake, hlt, ⟨hfound, hend⟩ | ⟨hnow, hmore⟩⟩
    · rw [hother]
      trivial
    · rw [hfound]
      show _ = TRANSFER_ENCODING
      rw [← htake, hend, List.take_length]
    · rw [hnow]
      exact ⟨hmore, htake.symm⟩
  | h_matching_connection | h_matching_proxy_connection | h_matching_upgrade =>
    refine ⟨_, rfl, ?_⟩
    unfold matching
    split
    · trivial
    · split <;> trivial
  | h_connection | h_upgrade | h_content_length | h_transfer_encoding =>
    refine ⟨_, rfl, ?_⟩
    rw [if_pos hch]
    trivial
  | _ => exact ht.elim

/-- In a name that has begun with `t`. -/
def InName (t : Bytes) : State → HeaderState → Nat → Prop := fun s h n =>
  s = .s_header_field ∧ Tracks t h n

/-- Behind a name that announces no body. -/
def Named (s : State) : State → HeaderState → Nat → Prop := fun s' h _ =>
  s' = s ∧ h ≠ .h_content_length ∧ h ≠ .h_transfer_encoding ∧ ∃ t n, Tracks t h n

theorem ne_of_token {ch x : UInt8} (htoken : TOKEN ch ≠ 0) (hx : TOKEN x = 0) : ch ≠ x := by
  rintro rfl
  exact htoken hx

theorem byteTurn_field {v : Vars Bytes} {ch : UInt8} (hs : v.parser.state = .s_header_field) :
    byteTurn collected ch v = byteField collected ch v := by
  unfold byteTurn
  simp only [hs]

variable {es : List HttpEvent}

theorem leads_nameStart {ch : UInt8} (htoken : TOKEN ch ≠ 0) :
    Leads (Vars.Stands (In .s_header_field_start) es {}) [ch]
      (Vars.Stands (InName [TOKEN ch]) es { field := some [ch] }) := by
  refine leads_byte (q := { field := some [] }) fun v hv => ?_
  have hs : v.parser.state = .s_header_field_start := hv.stage
  have hmark : (v.markField collected).header_field_mark = some [] := by
    rw [Vars.markField, hv.field]
    rfl
  refine ⟨{ v.markField collected with parser := { v.parser with
    index := 0, state := .s_header_field, header_state := fieldStart (TOKEN ch) } }, ?_,
    ⟨rfl, Tracks.start⟩, hv.chunked, hv.trailing, hv.skipBody, hv.length, hv.events, hv.url, hmark,
    hv.value, hv.body⟩
  unfold byteTurn switch
  simp only [hs]
  unfold headerFieldStart
  rw [if_neg (ne_of_token htoken (by decide +kernel)),
    if_neg (ne_of_token htoken (by decide +kernel)), if_neg htoken]
  rfl

theorem leads_nameByte (pre : Bytes) {ch : UInt8} (htoken : TOKEN ch ≠ 0) :
    Leads (Vars.Stands (InName (pre.map TOKEN)) es { field := some pre }) [ch]
      (Vars.Stands (InName ((pre ++ [ch]).map TOKEN)) es { field := some (pre ++ [ch]) }) := by
  refine leads_byte (q := { field := some pre }) fun v hv => ?_
  obtain ⟨hs, htracks⟩ := hv.stage
  have hblank : ch ≠ chr ' ' := ne_of_token htoken (by decide +kernel)
  obtain ⟨h', hfield, htracks'⟩ := htracks.step htoken hblank
  refine ⟨{ v with parser := { v.parser with
    header_state := h', index := v.parser.header_state.counted v.parser.index } }, ?_,
    ⟨hs, ?_⟩, hv.chunked, hv.trailing, hv.skipBody, hv.length, hv.events, hv.url, hv.field,
    hv.value, hv.body⟩
  · rw [byteTurn_field hs, byteField, if_neg htoken, fieldByte]
    dsimp only
    rw [hfield]
    rfl
  · rw [List.map_append]
    exact htracks'

theorem leads_nameEnd {name : Bytes} (hlength : name.map TOKEN ≠ CONTENT_LENGTH)
    (hencoding : name.map TOKEN ≠ TRANSFER_ENCODING) :
    Leads (Vars.Stands (InName (name.map TOKEN)) es { field := some name }) [chr ':']
      (Vars.Stands (Named .s_header_value_discard_ws) (es ++ [.headerField name]) {}) := by
  refine leads_byte (q := {}) fun v hv => ?_
  obtain ⟨hs, htracks⟩ := hv.stage
  have hevents : ((v.update .s_header_value_discard_ws).callField collected).events =
      es ++ [.headerField name] := by
    show v.events ++ (v.header_field_mark.map fun m => .headerField (collected.since m)).toList = _
    rw [hv.events, hv.field]
    rfl
  refine ⟨(v.update .s_header_value_discard_ws).callField collected, ?_,
    ⟨rfl, ?_, ?_, _, _, htracks⟩, hv.chunked, hv.trailing, hv.skipBody, hv.length, hevents, hv.url,
    rfl, hv.value, hv.body⟩
  · rw [byteTurn_field hs, byteField, if_pos (by decide +kernel), if_pos rfl]
  · intro h
    rw [show v.parser.header_state = .h_content_length from h] at htracks
    exact hlength htracks
  · intro h
    rw [show v.parser.header_state = .h_transfer_encoding from h] at htracks
    exact hencoding htracks

/-- The name of a header is reported. -/
theorem leads_name {line : HeaderLine} (h : line.Ok) :
    Leads (Vars.Stands (In .s_header_field_start) es {}) (line.name ++ [chr ':'])
      (Vars.Stands (Named .s_header_value_discard_ws) (es ++ [.headerField line.name]) {}) := by
  obtain ⟨c, cs, hname⟩ := List.exists_cons_of_ne_nil h.named
  refine Leads.append ?_ (leads_nameEnd h.length h.encoding)
  rw [hname]
  have hname' := h.name
  rw [hname] at hname'
  have hrest := Leads.collect
    (I := fun pre => Vars.Stands (InName (pre.map TOKEN)) es { field := some pre }) [c]
    fun pre ch hch => leads_nameByte pre (hname' ch (List.mem_cons_of_mem c hch))
  exact (leads_nameStart (hname' c List.mem_cons_self)).append hrest

/-! ## Values -/

/-- In a value nothing else is looked for than what is said of the connection. -/
def Harmless (h : HeaderState) : Prop :=
  h ∈ [HeaderState.h_general, .h_matching_connection_token_start, .h_matching_connection_keep_alive,
    .h_matching_connection_close, .h_matching_connection_upgrade, .h_matching_connection_token,
    .h_connection_keep_alive, .h_connection_close, .h_connection_upgrade]

/-- Of the parser, all but what is said of the connection is kept. -/
structure HttpParser.Aside (parser parser' : HttpParser) : Prop where
  state : parser'.state = parser.state
  chunked : parser'.flags.F_CHUNKED = parser.flags.F_CHUNKED
  trailing : parser'.flags.F_TRAILING = parser.flags.F_TRAILING
  skipBody : parser'.flags.F_SKIPBODY = parser.flags.F_SKIPBODY
  length : parser'.content_length = parser.content_length

theorem Vars.Stands.aside {stage stage' : State → HeaderState → Nat → Prop} {pieces : Pieces}
    {v : Vars Bytes} {parser : HttpParser} (h : v.Stands stage es pieces)
    (ha : v.parser.Aside parser)
    (hstage : stage' parser.state parser.header_state parser.index) :
    ({ v with parser := parser } : Vars Bytes).Stands stage' es pieces :=
  ⟨hstage, ha.chunked.trans h.chunked, ha.trailing.trans h.trailing, ha.skipBody.trans h.skipBody,
    ha.length.trans h.length, h.events, h.url, h.field, h.value, h.body⟩

theorem valueStart_harmless (ch : UInt8) (parser : HttpParser) {t : Bytes} {n : Nat}
    (hlength : parser.header_state ≠ .h_content_length)
    (hencoding : parser.header_state ≠ .h_transfer_encoding)
    (ht : Tracks t parser.header_state n) :
    ∃ parser', valueStart ch parser = .inr parser' ∧ parser.Aside parser' ∧
      Harmless parser'.header_state := by
  unfold valueStart Harmless
  cases h : parser.header_state with
  | h_content_length => exact absurd h hlength
  | h_transfer_encoding => exact absurd h hencoding
  | h_connection =>
    refine ⟨_, rfl, ⟨rfl, rfl, rfl, rfl, rfl⟩, ?_⟩
    dsimp only
    repeat' split
    all_goals
      decide
  | h_content_length_ws | h_matching_connection_token_start =>
    rw [h] at ht
    exact ht.elim
  | _ => exact ⟨_, rfl, ⟨rfl, rfl, rfl, rfl, rfl⟩, List.mem_cons_self⟩

theorem valueByte_harmless (ch : UInt8) {parser : HttpParser} (h : Harmless parser.header_state) :
    ∃ parser', valueByte ch parser = some (.inr parser') ∧ parser.Aside parser' ∧
      Harmless parser'.header_state := by
  unfold Harmless at *
  simp only [List.mem_cons, List.not_mem_nil, or_false] at h
  unfold valueByte
  rcases h with h | h | h | h | h | h | h | h | h
  all_goals
    rw [h]
    dsimp only
    repeat' split
  all_goals
    refine ⟨_, rfl, ⟨rfl, rfl, rfl, rfl, rfl⟩, ?_⟩
    dsimp only [matching]
    repeat' split
  all_goals
    decide

/-- In a value, or behind it. -/
def InValue (s : State) : State → HeaderState → Nat → Prop := fun s' h _ => s' = s ∧ Harmless h

theorem leads_blank {ch : UInt8} (hch : ch = chr ' ' ∨ ch = 9) :
    Leads (Vars.Stands (Named .s_header_value_discard_ws) es {}) [ch]
      (Vars.Stands (Named .s_header_value_discard_ws) es {}) := by
  refine leads_byte (q := {}) fun v hv => ⟨v, ?_, hv⟩
  have hs : v.parser.state = .s_header_value_discard_ws := hv.stage.1
  unfold byteTurn switch
  simp only [hs]
  exact if_pos hch

theorem headerValueStart_next {ch : UInt8} {v : Vars Bytes} {parser' : HttpParser}
    (h : valueStart ch { v.parser with state := .s_header_value, index := 0 } = .inr parser') :
    headerValueStart collected ch v = .next { v.markValue collected with parser := parser' } := by
  have hmarked : valueStart ch { (v.markValue collected).parser with
      state := .s_header_value, index := 0 } = .inr parser' := h
  unfold headerValueStart
  simp only [hmarked]

theorem leads_valueStart {ch : UInt8} (hblank : ch ≠ chr ' ' ∧ ch ≠ 9)
    (hend : ch ≠ CR ∧ ch ≠ LF) :
    Leads (Vars.Stands (Named .s_header_value_discard_ws) es {}) [ch]
      (Vars.Stands (InValue .s_header_value) es { value := some [ch] }) := by
  refine leads_byte (q := { value := some [] }) fun v hv => ?_
  obtain ⟨hs, hlength, hencoding, t, n, ht⟩ := hv.stage
  let u : Vars Bytes := { v.markValue collected with
    parser := { v.parser with state := .s_header_value, index := 0 } }
  have hmark : u.header_value_mark = some [] := by
    show (v.header_value_mark <|> some collected.here) = _
    rw [hv.value]
    rfl
  have hu : u.Stands (In .s_header_value) es { value := some [] } :=
    ⟨rfl, hv.chunked, hv.trailing, hv.skipBody, hv.length, hv.events, hv.url, hv.field, hmark,
      hv.body⟩
  obtain ⟨parser', hstart, haside, hharmless⟩ :=
    valueStart_harmless ch u.parser hlength hencoding ht
  refine ⟨{ u with parser := parser' }, ?_, hu.aside haside ⟨haside.state, hharmless⟩⟩
  have hturn : byteTurn collected ch v = headerValueDiscardWs collected ch v := by
    unfold byteTurn switch
    simp only [hs]
  rw [hturn, headerValueDiscardWs, if_neg (not_or.mpr hblank), if_neg hend.1, if_neg hend.2]
  exact headerValueStart_next hstart

theorem byteTurn_value {v : Vars Bytes} {ch : UInt8} (hs : v.parser.state = .s_header_value) :
    byteTurn collected ch v = byteValue collected ch v := by
  unfold byteTurn
  simp only [hs]

theorem leads_valueByte (pre : Bytes) {ch : UInt8}
    (hch : IS_HEADER_CHAR ch = true ∧ ch ≠ CR ∧ ch ≠ LF) :
    Leads (Vars.Stands (InValue .s_header_value) es { value := some pre }) [ch]
      (Vars.Stands (InValue .s_header_value) es { value := some (pre ++ [ch]) }) := by
  refine leads_byte (q := { value := some pre }) fun v hv => ?_
  obtain ⟨hs, hharmless⟩ := hv.stage
  obtain ⟨parser', hbyte, haside, hharmless'⟩ := valueByte_harmless ch hharmless
  refine ⟨{ v with parser := parser' }, ?_,
    hv.aside haside ⟨haside.state.trans hs, hharmless'⟩⟩
  rw [byteTurn_value hs, byteValue, if_neg hch.2.1, if_neg hch.2.2, if_neg (not_not.mpr hch.1),
    hbyte]

/-! ## The end of a line -/

/-- Behind a line: whatever begins the next one is read as at its start. -/
def Vars.Ready (es : List HttpEvent) (v : Vars Bytes) : Prop :=
  ∃ u : Vars Bytes, u.Stands (In .s_header_field_start) es {} ∧
    ∀ ch, ¬ (ch = chr ' ' ∨ ch = 9) → feed v ch = feed u ch

theorem Leads.ready {ch : UInt8} {b : Bytes} {Q : Vars Bytes → Prop}
    (h : Leads (Vars.Stands (In .s_header_field_start) es {}) (ch :: b) Q)
    (hch : ¬ (ch = chr ' ' ∨ ch = 9)) : Leads (Vars.Ready es) (ch :: b) Q := by
  rintro v ⟨u, hu, hsame⟩
  obtain ⟨w, hfed, hw⟩ := h u hu
  refine ⟨w, ?_, hw⟩
  rw [fed, hsame ch hch]
  exact hfed

theorem countByte_header {v : Vars Bytes} (h : v.parser.state.parsingHeader = true) :
    v.countByte = { v with parser := v.parser.addRead 1 } :=
  if_pos h

/-- Only at `Transfer-Encoding` a finished header announces chunks. -/
theorem finish_chunked (flags : Flags) {h : HeaderState} (hh : h ≠ .h_transfer_encoding_chunked) :
    (flags.finish h).F_CHUNKED = flags.F_CHUNKED ∧ (flags.finish h).F_TRAILING = flags.F_TRAILING ∧
      (flags.finish h).F_SKIPBODY = flags.F_SKIPBODY := by
  unfold Flags.finish
  split
  · exact ⟨rfl, rfl, rfl⟩
  · exact ⟨rfl, rfl, rfl⟩
  · exact absurd rfl hh
  · exact ⟨rfl, rfl, rfl⟩
  · exact ⟨rfl, rfl, rfl⟩

/-- The blank line of an obsolete fold does not come. -/
theorem ready_lws {v : Vars Bytes} (hv : v.Stands (InValue .s_header_value_lws) es {}) :
    v.Ready es := by
  obtain ⟨hs, hharmless⟩ := hv.stage
  obtain ⟨hchunked, htrailing, hskip⟩ := finish_chunked v.parser.flags
    (h := v.parser.header_state) (by
      intro h
      unfold Harmless at hharmless
      rw [h] at hharmless
      exact absurd hharmless (by decide))
  refine ⟨(v.setFlags (v.parser.flags.finish v.parser.header_state)).update .s_header_field_start,
    ⟨rfl, hchunked.trans hv.chunked, htrailing.trans hv.trailing, hskip.trans hv.skipBody,
      hv.length, hv.events, hv.url, hv.field, hv.value, hv.body⟩, fun ch hch => ?_⟩
  have hturn : byteTurn collected ch v.countByte = byteTurn collected ch
      ((v.setFlags (v.parser.flags.finish v.parser.header_state)).update
        .s_header_field_start).countByte := by
    rw [countByte_header (by rw [hs]; rfl), countByte_header rfl]
    unfold byteTurn switch
    simp only [HttpParser.addRead, hs, Vars.update, Vars.setFlags]
    unfold headerValueLws
    rw [if_neg hch]
    rfl
  unfold feed
  rw [hturn]

/-- A value is reported where its line ends. -/
theorem leads_valueEnd (value : Bytes) :
    Leads (Vars.Stands (InValue .s_header_value) es { value := some value }) [CR, LF]
      (Vars.Ready (es ++ [.headerValue value])) := by
  have hCR : Leads (Vars.Stands (InValue .s_header_value) es { value := some value }) [CR]
      (Vars.Stands (InValue .s_header_almost_done) (es ++ [.headerValue value]) {}) := by
    refine leads_byte (q := {}) fun v hv => ?_
    obtain ⟨hs, hharmless⟩ := hv.stage
    have hevents : ((v.update .s_header_almost_done).callValue collected).events =
        es ++ [.headerValue value] := by
      show v.events ++
        (v.header_value_mark.map fun m => .headerValue (collected.since m)).toList = _
      rw [hv.events, hv.value]
      rfl
    refine ⟨(v.update .s_header_almost_done).callValue collected, ?_, ⟨rfl, hharmless⟩, hv.chunked,
      hv.trailing, hv.skipBody, hv.length, hevents, hv.url, hv.field, rfl, hv.body⟩
    rw [byteTurn_value hs, byteValue, if_pos rfl]
  have hLF : Leads (Vars.Stands (InValue .s_header_almost_done) (es ++ [.headerValue value]) {})
      [LF] (Vars.Stands (InValue .s_header_value_lws) (es ++ [.headerValue value]) {}) := by
    refine leads_byte (q := {}) fun v hv => ?_
    obtain ⟨hs, hharmless⟩ := hv.stage
    refine ⟨v.update .s_header_value_lws, ?_, hv.update ⟨rfl, hharmless⟩⟩
    unfold byteTurn switch
    simp only [hs]
    rfl
  exact (hCR.append hLF).mono (fun v hv => hv) fun v hv => ready_lws hv

/-- An empty value is reported only with the byte behind its line. -/
theorem ready_empty {v : Vars Bytes}
    (hv : v.Stands (Named .s_header_value_discard_lws) es {}) :
    v.Ready (es ++ [.headerValue []]) := by
  obtain ⟨hs, hlength, -, t, n, ht⟩ := hv.stage
  obtain ⟨hchunked, htrailing, hskip⟩ := finish_chunked v.parser.flags
    (h := v.parser.header_state) (by
      intro h
      rw [h] at ht
      exact ht)
  let u : Vars Bytes := (((v.setFlags (v.parser.flags.finish v.parser.header_state)).markValue
    collected).update .s_header_field_start).callValue collected
  have hevents : u.events = es ++ [.headerValue []] := by
    show v.events ++ ((v.header_value_mark <|> some collected.here).map
      fun m => .headerValue (collected.since m)).toList = _
    rw [hv.events, hv.value]
    rfl
  refine ⟨u, ⟨rfl, hchunked.trans hv.chunked, htrailing.trans hv.trailing, hskip.trans hv.skipBody,
    hv.length, hevents, hv.url, hv.field, rfl, hv.body⟩, fun ch hch => ?_⟩
  have hturn : byteTurn collected ch v.countByte = byteTurn collected ch u.countByte := by
    rw [countByte_header (by rw [hs]; rfl), countByte_header rfl]
    unfold byteTurn switch
    simp only [HttpParser.addRead, hs, u, Vars.update, Vars.setFlags, Vars.callValue,
      Vars.markValue]
    unfold headerValueDiscardLws
    rw [if_neg hch, if_neg hlength]
    rfl
  unfold feed
  rw [hturn]

theorem leads_emptyValue :
    Leads (Vars.Stands (Named .s_header_value_discard_ws) es {}) [CR, LF]
      (Vars.Ready (es ++ [.headerValue []])) := by
  have hCR : Leads (Vars.Stands (Named .s_header_value_discard_ws) es {}) [CR]
      (Vars.Stands (Named .s_header_value_discard_ws_almost_done) es {}) := by
    refine leads_byte (q := {}) fun v hv => ?_
    obtain ⟨hs, hnamed⟩ := hv.stage
    refine ⟨v.update .s_header_value_discard_ws_almost_done, ?_, hv.update ⟨rfl, hnamed⟩⟩
    unfold byteTurn switch
    simp only [hs]
    rfl
  have hLF : Leads (Vars.Stands (Named .s_header_value_discard_ws_almost_done) es {}) [LF]
      (Vars.Stands (Named .s_header_value_discard_lws) es {}) := by
    refine leads_byte (q := {}) fun v hv => ?_
    obtain ⟨hs, hnamed⟩ := hv.stage
    refine ⟨v.update .s_header_value_discard_lws, ?_, hv.update ⟨rfl, hnamed⟩⟩
    unfold byteTurn switch
    simp only [hs]
    rfl
  exact (hCR.append hLF).mono (fun v hv => hv) fun v hv => ready_empty hv

/-- Blanks, a value and the end of the line. -/
theorem leads_value {line : HeaderLine} (h : line.Ok) :
    Leads (Vars.Stands (Named .s_header_value_discard_ws) es {})
      (line.blanks ++ (line.value ++ [CR, LF])) (Vars.Ready (es ++ [.headerValue line.value])) := by
  refine Leads.append (Leads.collect
    (I := fun _ => Vars.Stands (Named .s_header_value_discard_ws) es {}) []
    fun _ ch hch => leads_blank (h.blanks ch hch)) ?_
  have hvalue := h.value
  have hstart := h.start
  cases hv : line.value with
  | nil => exact leads_emptyValue
  | cons c cs =>
    rw [hv] at hvalue hstart
    have hrest := Leads.collect
      (I := fun pre => Vars.Stands (InValue .s_header_value) es { value := some pre }) [c]
      fun pre ch hch => leads_valueByte pre (hvalue ch (List.mem_cons_of_mem c hch))
    exact ((leads_valueStart (hstart c rfl) (hvalue c List.mem_cons_self).2).append hrest).append
      (leads_valueEnd (c :: cs))

/-! ## All lines -/

/-- **A header line** is reported, and the parser is ready for the next one. -/
theorem leads_line {line : HeaderLine} (h : line.Ok) :
    Leads (Vars.Ready es) line.text
      (Vars.Ready (es ++ [.headerField line.name, .headerValue line.value])) := by
  obtain ⟨c, cs, hname⟩ := List.exists_cons_of_ne_nil h.named
  have hrest : Leads (Vars.Stands (Named .s_header_value_discard_ws)
      (es ++ [.headerField line.name]) {}) _ _ := leads_value h
  rw [List.append_assoc] at hrest
  have hline := (leads_name h).append hrest
  have htoken : TOKEN c ≠ 0 := h.name c (hname ▸ List.mem_cons_self)
  rw [HeaderLine.text, List.append_cons]
  rw [hname] at hline ⊢
  refine hline.ready ?_
  rintro (rfl | rfl)
  all_goals
    exact htoken (by decide +kernel)

theorem leads_lines {lines : List HeaderLine} (h : ∀ line ∈ lines, line.Ok) :
    Leads (Vars.Ready es) (lines.flatMap HeaderLine.text)
      (Vars.Ready (es ++ lines.flatMap fun line =>
        [.headerField line.name, .headerValue line.value])) := by
  induction lines generalizing es with
  | nil => exact .nil fun v hv => (List.append_nil es).symm ▸ hv
  | cons line lines ih =>
    rw [List.flatMap_cons, List.flatMap_cons, ← List.append_assoc es]
    exact (leads_line (h line List.mem_cons_self)).append
      (ih fun l hl => h l (List.mem_cons_of_mem line hl))

end LibuvServer.Http
