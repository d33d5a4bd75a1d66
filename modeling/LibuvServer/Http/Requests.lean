import LibuvServer.Http.Feeding
import LibuvServer.Netbus.HandshakeKeys
import Mathlib.Tactic.Common

/-!
# Requests

What `http_parser_execute` makes of the text of a request without a body: its
headers are reported whole and in order, and then its end.
-/

namespace LibuvServer.Http

open LibuvServer.Netbus

/-! ## The text of a request -/

/-- A header, with the blanks before its value. -/
structure HeaderLine where
  name : Bytes
  blanks : Bytes
  value : Bytes

def HeaderLine.text (line : HeaderLine) : Bytes :=
  line.name ++ chr ':' :: (line.blanks ++ (line.value ++ [CR, LF]))

/-- A header that says nothing of a body. -/
structure HeaderLine.Ok (line : HeaderLine) : Prop where
  named : line.name ≠ []
  name : ∀ c ∈ line.name, TOKEN c ≠ 0
  length : line.name.map TOKEN ≠ CONTENT_LENGTH
  encoding : line.name.map TOKEN ≠ TRANSFER_ENCODING
  blanks : ∀ c ∈ line.blanks, c = chr ' ' ∨ c = 9
  value : ∀ c ∈ line.value, IS_HEADER_CHAR c = true ∧ c ≠ CR ∧ c ≠ LF
  start : ∀ c ∈ line.value.head?, c ≠ chr ' ' ∧ c ≠ 9

instance (line : HeaderLine) : Decidable line.Ok :=
  have := List.decidableBAll (fun c => TOKEN c ≠ 0) line.name
  have := List.decidableBAll (fun c => c = chr ' ' ∨ c = 9) line.blanks
  have := List.decidableBAll (fun c => IS_HEADER_CHAR c = true ∧ c ≠ CR ∧ c ≠ LF) line.value
  have : Decidable (∀ c ∈ line.value.head?, c ≠ chr ' ' ∧ c ≠ 9) := Option.decidableForallMem _
  decidable_of_iff (line.name ≠ [] ∧ (∀ c ∈ line.name, TOKEN c ≠ 0) ∧
    line.name.map TOKEN ≠ CONTENT_LENGTH ∧ line.name.map TOKEN ≠ TRANSFER_ENCODING ∧
      (∀ c ∈ line.blanks, c = chr ' ' ∨ c = 9) ∧
        (∀ c ∈ line.value, IS_HEADER_CHAR c = true ∧ c ≠ CR ∧ c ≠ LF) ∧
          ∀ c ∈ line.value.head?, c ≠ chr ' ' ∧ c ≠ 9)
    ⟨fun ⟨a, b, c, d, e, f, g⟩ => ⟨a, b, c, d, e, f, g⟩,
      fun ⟨a, b, c, d, e, f, g⟩ => ⟨a, b, c, d, e, f, g⟩⟩

structure RequestText where
  method : Method
  /-- What comes behind the `/` of the target. -/
  target : Bytes
  major : UInt8
  minor : UInt8
  lines : List HeaderLine

def RequestText.text (r : RequestText) : Bytes :=
  r.method.string ++ [chr ' '] ++ [chr '/'] ++ r.target ++ [chr ' '] ++
    [chr 'H', chr 'T', chr 'T', chr 'P', chr '/', r.major, chr '.', r.minor, CR, LF] ++
    r.lines.flatMap HeaderLine.text ++ [CR, LF]

structure RequestText.Ok (r : RequestText) : Prop where
  target : ∀ c ∈ r.target, 33 ≤ c ∧ c ≤ 126
  major : IS_NUM r.major = true
  minor : IS_NUM r.minor = true
  lines : ∀ line ∈ r.lines, line.Ok

instance (r : RequestText) : Decidable r.Ok :=
  have := List.decidableBAll (fun c => 33 ≤ c ∧ c ≤ 126) r.target
  decidable_of_iff ((∀ c ∈ r.target, 33 ≤ c ∧ c ≤ 126) ∧ IS_NUM r.major = true ∧
    IS_NUM r.minor = true ∧ ∀ line ∈ r.lines, line.Ok)
    ⟨fun ⟨a, b, c, d⟩ => ⟨a, b, c, d⟩, fun ⟨a, b, c, d⟩ => ⟨a, b, c, d⟩⟩

def RequestText.headers (r : RequestText) : List Handshakes.Header :=
  r.lines.map fun line => (line.name, line.value)

/-! ## Pre- and postconditions -/

/-- From every state of the one kind, the bytes lead to one of the other. -/
def Leads (P : Vars Bytes → Prop) (bytes : Bytes) (Q : Vars Bytes → Prop) : Prop :=
  ∀ v, P v → ∃ w, fed v bytes = some w ∧ Q w

section Leads

variable {P Q R : Vars Bytes → Prop} {a b : Bytes}

theorem Leads.nil (h : ∀ v, P v → Q v) : Leads P [] Q := fun v hv => ⟨v, rfl, h v hv⟩

theorem Leads.append (h : Leads P a Q) (h' : Leads Q b R) : Leads P (a ++ b) R := by
  intro v hv
  obtain ⟨u, hfed, hu⟩ := h v hv
  obtain ⟨w, hfed', hw⟩ := h' u hu
  exact ⟨w, by rw [fed_append hfed, hfed'], hw⟩

theorem Leads.mono {P' Q' : Vars Bytes → Prop} (h : Leads P a Q) (hP : ∀ v, P' v → P v)
    (hQ : ∀ v, Q v → Q' v) : Leads P' a Q' := by
  intro v hv
  obtain ⟨w, hfed, hw⟩ := h v (hP v hv)
  exact ⟨w, hfed, hQ w hw⟩

/-- What is collected meanwhile is the bytes. -/
theorem Leads.collect {I : Bytes → Vars Bytes → Prop} (pre : Bytes)
    (h : ∀ pre, ∀ ch ∈ b, Leads (I pre) [ch] (I (pre ++ [ch]))) :
    Leads (I pre) b (I (pre ++ b)) := by
  induction b generalizing pre with
  | nil => exact .nil fun v hv => (List.append_nil pre).symm ▸ hv
  | cons ch b ih =>
    rw [List.append_cons]
    exact (h pre ch List.mem_cons_self).append
      (ih _ fun pre ch hch => h pre ch (List.mem_cons_of_mem _ hch))

end Leads

/-! ## Where the parser stands -/

/-- The pieces that are being collected. -/
structure Pieces where
  url : Option Bytes := none
  field : Option Bytes := none
  value : Option Bytes := none

def Pieces.grow (ch : UInt8) (pieces : Pieces) : Pieces where
  url := pieces.url.map (· ++ [ch])
  field := pieces.field.map (· ++ [ch])
  value := pieces.value.map (· ++ [ch])

/-- In a request without a body: the stage of the parser, by its state, its
`header_state` and its `index`, the callbacks so far and the pieces. -/
structure Vars.Stands (stage : State → HeaderState → Nat → Prop) (es : List HttpEvent)
    (pieces : Pieces) (v : Vars Bytes) : Prop where
  stage : stage v.parser.state v.parser.header_state v.parser.index
  chunked : v.parser.flags.F_CHUNKED = false
  trailing : v.parser.flags.F_TRAILING = false
  skipBody : v.parser.flags.F_SKIPBODY = false
  length : v.parser.content_length = ULLONG_MAX
  events : v.events = es
  url : v.url_mark = pieces.url
  field : v.header_field_mark = pieces.field
  value : v.header_value_mark = pieces.value
  body : v.body_mark = none

/-- The stage of one state. -/
def In (s : State) : State → HeaderState → Nat → Prop := fun s' _ _ => s' = s

section Stands

variable {stage stage' : State → HeaderState → Nat → Prop} {es es' : List HttpEvent}
  {pieces q : Pieces} {v : Vars Bytes} {ch : UInt8}

theorem Vars.Stands.grow (h : v.Stands stage es pieces) :
    (v.grow ch).Stands stage es (pieces.grow ch) :=
  ⟨h.stage, h.chunked, h.trailing, h.skipBody, h.length, h.events,
    congrArg (Option.map (· ++ [ch])) h.url, congrArg (Option.map (· ++ [ch])) h.field,
    congrArg (Option.map (· ++ [ch])) h.value, congrArg (Option.map (· ++ [ch])) h.body⟩

theorem Vars.Stands.countByte (h : v.Stands stage es pieces) :
    v.countByte.Stands stage es pieces := by
  unfold Vars.countByte
  split
  · exact ⟨h.stage, h.chunked, h.trailing, h.skipBody, h.length, h.events, h.url, h.field,
      h.value, h.body⟩
  · exact h

/-- One byte. -/
theorem leads_byte (h : ∀ v : Vars Bytes, v.Stands stage es pieces →
    ∃ w, byteTurn collected ch v = .next w ∧ w.Stands stage' es' q) :
    Leads (Vars.Stands stage es pieces) [ch] (Vars.Stands stage' es' (q.grow ch)) := by
  intro v hv
  obtain ⟨w, hturn, hw⟩ := h _ hv.countByte
  refine ⟨w.grow ch, ?_, hw.grow⟩
  rw [fed, feed, hturn]
  rfl

/-- The state of a stage is another one, and nothing else is. -/
theorem Vars.Stands.update (h : v.Stands stage es pieces) {s : State}
    (hstage : stage' s v.parser.header_state v.parser.index) :
    (v.update s).Stands stage' es pieces :=
  ⟨hstage, h.chunked, h.trailing, h.skipBody, h.length, h.events, h.url, h.field, h.value, h.body⟩

end Stands

/-! ## The request line -/

/-- Where the name of the method has led. -/
def Method.leads (m : Method) : Bool :=
  match fed {} (m.string ++ [chr ' ']) with
  | some w => decide (w.parser.state = .s_req_spaces_before_url) && !w.parser.flags.F_CHUNKED &&
      !w.parser.flags.F_TRAILING && !w.parser.flags.F_SKIPBODY &&
      decide (w.parser.content_length = ULLONG_MAX) && w.events.isEmpty && w.url_mark.isNone &&
      w.header_field_mark.isNone && w.header_value_mark.isNone && w.body_mark.isNone
  | none => false

theorem method_leads (m : Method) : m.leads = true := by
  cases m <;> decide +kernel

theorem leads_method (m : Method) :
    Leads (· = {}) (m.string ++ [chr ' ']) (Vars.Stands (In .s_req_spaces_before_url) [] {}) := by
  rintro v rfl
  have hleads := method_leads m
  unfold Method.leads at hleads
  cases hfed : fed {} (m.string ++ [chr ' ']) with
  | none =>
    rw [hfed] at hleads
    cases hleads
  | some w =>
    rw [hfed] at hleads
    simp only [Bool.and_eq_true, decide_eq_true_eq, Bool.not_eq_true', Option.isNone_iff_eq_none,
      List.isEmpty_iff] at hleads
    obtain ⟨⟨⟨⟨⟨⟨⟨⟨⟨hs, hc⟩, ht⟩, hb⟩, hl⟩, he⟩, hu⟩, hf⟩, hv⟩, hm⟩ := hleads
    exact ⟨w, rfl, hs, hc, ht, hb, hl, he, hu, hf, hv, hm⟩

/-- The states in which a `/` and what follows it are read. -/
def InUrl : State → HeaderState → Nat → Prop := fun s _ _ =>
  s ∈ [State.s_req_path, .s_req_query_string_start, .s_req_query_string, .s_req_fragment_start,
    .s_req_fragment]

theorem leads_slash : Leads (Vars.Stands (In .s_req_spaces_before_url) [] {}) [chr '/']
    (Vars.Stands InUrl [] { url := some [chr '/'] }) := by
  refine leads_byte (q := { url := some [] }) fun v hv => ?_
  have hstate : v.parser.state = .s_req_spaces_before_url := hv.stage
  have hmark : (v.markUrl collected).url_mark = some [] := by
    rw [Vars.markUrl, hv.url]
    rfl
  have hturn : byteTurn collected (chr '/') v =
      .next ((v.markUrl collected).update .s_req_path) := by
    unfold byteTurn switch
    simp only [hstate]
    unfold reqSpacesBeforeUrl
    rw [if_neg (by decide)]
    dsimp only
    split
    · rfl
    · unfold urlChar
      rw [show (v.markUrl collected).parser.state = .s_req_spaces_before_url from hstate]
      rfl
  exact ⟨_, hturn, List.mem_cons_self, hv.chunked, hv.trailing, hv.skipBody, hv.length, hv.events,
    hmark, hv.field, hv.value, hv.body⟩

/-- A visible character keeps the URL going. -/
theorem parseUrlChar_inUrl {s : State} {h : HeaderState} {n : Nat} {ch : UInt8} (hs : InUrl s h n)
    (hch : 33 ≤ ch ∧ ch ≤ 126) : InUrl (parseUrlChar s ch) h n := by
  have hblank : ¬ (ch = chr ' ' ∨ ch = CR ∨ ch = LF ∨ ch = 9 ∨ ch = 12) := by
    rintro (rfl | rfl | rfl | rfl | rfl)
    all_goals
      exact absurd hch.1 (by decide)
  unfold InUrl at *
  by_cases hmark : ch = chr '?'
  · subst hmark
    simp only [List.mem_cons, List.not_mem_nil, or_false] at hs
    rcases hs with rfl | rfl | rfl | rfl | rfl <;> decide
  · by_cases hhash : ch = chr '#'
    · subst hhash
      simp only [List.mem_cons, List.not_mem_nil, or_false] at hs
      rcases hs with rfl | rfl | rfl | rfl | rfl <;> decide
    · have hurl : IS_URL_CHAR ch = true := by
        simp only [IS_URL_CHAR, hch.1, hch.2, hmark, hhash, ne_eq, not_false_eq_true, decide_true,
          Bool.and_self]
      unfold parseUrlChar
      rw [if_neg hblank]
      simp only [List.mem_cons, List.not_mem_nil, or_false] at hs
      rcases hs with rfl | rfl | rfl | rfl | rfl
      all_goals
        simp only [hurl, true_or, if_true]
        decide

theorem byteTurn_inUrl {v : Vars Bytes} {ch : UInt8}
    (h : InUrl v.parser.state v.parser.header_state v.parser.index) :
    byteTurn collected ch v = reqUrl ch v := by
  unfold InUrl at h
  simp only [List.mem_cons, List.not_mem_nil, or_false] at h
  unfold byteTurn switch
  rcases h with h | h | h | h | h <;> rw [h]

theorem leads_target (pre : Bytes) {ch : UInt8} (hch : 33 ≤ ch ∧ ch ≤ 126) :
    Leads (Vars.Stands InUrl [] { url := some pre }) [ch]
      (Vars.Stands InUrl [] { url := some (pre ++ [ch]) }) := by
  refine leads_byte (q := { url := some pre }) fun v hv => ?_
  have hnext := parseUrlChar_inUrl hv.stage hch
  have hblank : ch ≠ chr ' ' := by
    rintro rfl
    exact absurd hch.1 (by decide)
  have hend : ¬ (ch = CR ∨ ch = LF) := by
    rintro (rfl | rfl)
    all_goals
      exact absurd hch.1 (by decide)
  have halive : parseUrlChar v.parser.state ch ≠ .s_dead := by
    intro hdead
    rw [hdead] at hnext
    unfold InUrl at hnext
    exact absurd hnext (by decide)
  refine ⟨v.update (parseUrlChar v.parser.state ch), ?_, hv.update hnext⟩
  rw [byteTurn_inUrl hv.stage, reqUrl, if_neg hblank, if_neg hend]
  exact if_neg halive

/-- The blank behind the URL. -/
theorem leads_urlEnd (pre : Bytes) : Leads (Vars.Stands InUrl [] { url := some pre }) [chr ' ']
    (Vars.Stands (In .s_req_http_start) [] {}) := by
  refine leads_byte (q := {}) fun v hv => ?_
  refine ⟨(v.update .s_req_http_start).callUrl, ?_, rfl, hv.chunked, hv.trailing, hv.skipBody,
    hv.length, hv.events, rfl, hv.field, hv.value, hv.body⟩
  rw [byteTurn_inUrl hv.stage, reqUrl, if_pos rfl]

theorem Vars.update_self {v : Vars Bytes} {s : State} (h : v.parser.state = s) :
    v.update s = v := by
  subst h
  rfl

/-- A byte that only changes the state. -/
theorem leads_update {s s' : State} {es : List HttpEvent} {ch : UInt8}
    (h : ∀ v : Vars Bytes, byteTurn collected ch (v.update s) = .next (v.update s')) :
    Leads (Vars.Stands (In s) es {}) [ch] (Vars.Stands (In s') es {}) := by
  refine leads_byte (q := {}) fun v hv => ⟨v.update s', ?_, hv.update rfl⟩
  rw [← h v, Vars.update_self hv.stage]

theorem leads_http : Leads (Vars.Stands (In .s_req_http_start) [] {})
    [chr 'H', chr 'T', chr 'T', chr 'P', chr '/'] (Vars.Stands (In .s_req_http_major) [] {}) := by
  have hH : Leads (Vars.Stands (In .s_req_http_start) [] {}) [chr 'H']
      (Vars.Stands (In .s_req_http_H) [] {}) :=
    leads_update fun _ => rfl
  have hHT : Leads (Vars.Stands (In .s_req_http_H) [] {}) [chr 'T']
      (Vars.Stands (In .s_req_http_HT) [] {}) :=
    leads_update fun _ => rfl
  have hHTT : Leads (Vars.Stands (In .s_req_http_HT) [] {}) [chr 'T']
      (Vars.Stands (In .s_req_http_HTT) [] {}) :=
    leads_update fun _ => rfl
  have hHTTP : Leads (Vars.Stands (In .s_req_http_HTT) [] {}) [chr 'P']
      (Vars.Stands (In .s_req_http_HTTP) [] {}) :=
    leads_update fun _ => rfl
  have hslash : Leads (Vars.Stands (In .s_req_http_HTTP) [] {}) [chr '/']
      (Vars.Stands (In .s_req_http_major) [] {}) :=
    leads_update fun _ => rfl
  exact hH.append (hHT.append (hHTT.append (hHTTP.append hslash)))

theorem leads_version {major minor : UInt8} (hmajor : IS_NUM major = true)
    (hminor : IS_NUM minor = true) : Leads (Vars.Stands (In .s_req_http_major) [] {})
      [major, chr '.', minor, CR, LF] (Vars.Stands (In .s_header_field_start) [] {}) := by
  have hfirst : Leads (Vars.Stands (In .s_req_http_major) [] {}) [major]
      (Vars.Stands (In .s_req_http_dot) [] {}) := by
    refine leads_byte (q := {}) fun v hv => ?_
    refine ⟨{ v with
      parser := { v.parser with http_major := major.toNat - 48, state := .s_req_http_dot } }, ?_,
      rfl, hv.chunked, hv.trailing, hv.skipBody, hv.length, hv.events, hv.url, hv.field, hv.value,
      hv.body⟩
    have hs : v.parser.state = .s_req_http_major := hv.stage
    unfold byteTurn switch
    simp only [hs]
    exact if_neg (not_not.mpr hmajor)
  have hdot : Leads (Vars.Stands (In .s_req_http_dot) [] {}) [chr '.']
      (Vars.Stands (In .s_req_http_minor) [] {}) :=
    leads_update fun _ => rfl
  have hsecond : Leads (Vars.Stands (In .s_req_http_minor) [] {}) [minor]
      (Vars.Stands (In .s_req_http_end) [] {}) := by
    refine leads_byte (q := {}) fun v hv => ?_
    refine ⟨{ v with
      parser := { v.parser with http_minor := minor.toNat - 48, state := .s_req_http_end } }, ?_,
      rfl, hv.chunked, hv.trailing, hv.skipBody, hv.length, hv.events, hv.url, hv.field, hv.value,
      hv.body⟩
    have hs : v.parser.state = .s_req_http_minor := hv.stage
    unfold byteTurn switch
    simp only [hs]
    exact if_neg (not_not.mpr hminor)
  have hCR : Leads (Vars.Stands (In .s_req_http_end) [] {}) [CR]
      (Vars.Stands (In .s_req_line_almost_done) [] {}) :=
    leads_update fun _ => rfl
  have hLF : Leads (Vars.Stands (In .s_req_line_almost_done) [] {}) [LF]
      (Vars.Stands (In .s_header_field_start) [] {}) :=
    leads_update fun _ => rfl
  exact hfirst.append (hdot.append (hsecond.append (hCR.append hLF)))

end LibuvServer.Http
