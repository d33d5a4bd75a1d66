import LibuvServer.Http.HeaderLines
import Mathlib.Tactic.Common

/-!
# Texts of requests

The whole text of a request, from the method to the blank line. It is reported
as its headers and its end, whatever is said of the connection.
-/

namespace LibuvServer.Http

open LibuvServer.Netbus

/-- The line with the method, the target and the version. -/
def RequestText.requestLine (r : RequestText) : Bytes :=
  r.method.string ++ [chr ' '] ++ [chr '/'] ++ r.target ++ [chr ' '] ++
    [chr 'H', chr 'T', chr 'T', chr 'P', chr '/'] ++ [r.major, chr '.', r.minor, CR, LF]

theorem Vars.Stands.ready {es : List HttpEvent} {v : Vars Bytes}
    (h : v.Stands (In .s_header_field_start) es {}) : v.Ready es :=
  ⟨v, h, fun _ _ => rfl⟩

theorem leads_requestLine {r : RequestText} (h : r.Ok) :
    Leads (· = {}) r.requestLine (Vars.Ready []) := by
  have htarget := Leads.collect (I := fun pre => Vars.Stands InUrl [] { url := some pre })
    [chr '/'] fun pre ch hch => leads_target pre (h.target ch hch)
  have hline := ((((leads_method r.method).append leads_slash).append htarget).append
    (leads_urlEnd _)).append leads_http
  exact (hline.append (leads_version h.major h.minor)).mono (fun v hv => hv) fun v hv => hv.ready

/-- All of the text but the last two bytes. -/
def RequestText.front (r : RequestText) : Bytes :=
  r.requestLine ++ r.lines.flatMap HeaderLine.text

theorem RequestText.text_eq (r : RequestText) : r.text = r.front ++ [CR, LF] := by
  rw [RequestText.text, RequestText.front, RequestText.requestLine]
  simp only [List.append_assoc, List.cons_append, List.nil_append]

/-- What is reported of the headers. -/
def RequestText.headerEvents (r : RequestText) : List HttpEvent :=
  r.lines.flatMap fun line => [.headerField line.name, .headerValue line.value]

theorem RequestText.events_headers (r : RequestText) :
    Handshakes.events r.headers = r.headerEvents ++ [.messageComplete] := by
  rw [Handshakes.events, RequestText.headers, RequestText.headerEvents, List.flatMap_map]

theorem leads_front {r : RequestText} (h : r.Ok) :
    Leads (· = {}) r.front (Vars.Ready r.headerEvents) := by
  have hlines : Leads (Vars.Ready []) _ _ := leads_lines h.lines
  rw [List.nil_append] at hlines
  exact (leads_requestLine h).append hlines

/-! ## The end -/

theorem leads_lastCR {es : List HttpEvent} :
    Leads (Vars.Ready es) [CR] (Vars.Stands (In .s_headers_almost_done) es {}) :=
  (leads_update fun _ => rfl).ready (by decide)

/-- Without a body the message is complete at the last byte. -/
theorem headersDone_complete {v : Vars Bytes} (hchunked : v.parser.flags.F_CHUNKED = false)
    (hskip : v.parser.flags.F_SKIPBODY = false) (hlength : v.parser.content_length = ULLONG_MAX) :
    ∃ w : Vars Bytes, (headersDone LF v = .ret w ∨ headersDone LF v = .next w) ∧
      w.events = v.events ++ [.messageComplete] ∧ w.url_mark = v.url_mark ∧
        w.header_field_mark = v.header_field_mark ∧ w.header_value_mark = v.header_value_mark ∧
          w.body_mark = v.body_mark := by
  refine ⟨({ v with parser := { v.parser with nread := 0 } } : Vars Bytes).newMessage, ?_, rfl, rfl,
    rfl, rfl, rfl⟩
  unfold headersDone
  simp only [hchunked, hskip, hlength, messageNeedsEof]
  rw [if_neg (by decide)]
  split
  · exact .inl rfl
  · exact .inr rfl

/-- Without marks the end of the data adds nothing. -/
theorem atEnd_none {Mark : Type} {place : Place Mark} {v : Vars Mark} (hurl : v.url_mark = none)
    (hfield : v.header_field_mark = none) (hvalue : v.header_value_mark = none)
    (hbody : v.body_mark = none) : atEnd place v = .returned v.events := by
  unfold atEnd Vars.callField Vars.callValue
  rw [hurl, hfield, hvalue, hbody]
  simp only [Option.map_none, Option.toList_none, List.append_nil]
  exact if_pos (Nat.zero_le 1)

theorem feedAll_lastLF {es : List HttpEvent} {v : Vars Bytes}
    (hv : v.Stands (In .s_headers_almost_done) es {}) :
    feedAll v [LF] = .returned (es ++ [.messageComplete]) := by
  have hu := hv.countByte
  have hturn : ∃ w : Vars Bytes, (byteTurn collected LF v.countByte = .ret w ∨
      byteTurn collected LF v.countByte = .next w) ∧ w.events = es ++ [.messageComplete] ∧
        w.url_mark = none ∧ w.header_field_mark = none ∧ w.header_value_mark = none ∧
          w.body_mark = none := by
    have hs : v.countByte.parser.state = .s_headers_almost_done := hu.stage
    unfold byteTurn switch
    simp only [hs]
    unfold headersAlmostDone
    simp only [hu.trailing, hu.chunked]
    rw [if_neg (by decide), if_neg Bool.false_ne_true, if_neg (fun h => Bool.false_ne_true h.1)]
    obtain ⟨w, hflow, hevents, hurl, hfield, hvalue, hbody⟩ := headersDone_complete
      (v := { v.countByte with parser := { v.countByte.parser with
        state := .s_headers_done
        upgrade := if v.countByte.parser.flags.F_UPGRADE ∧
            v.countByte.parser.flags.F_CONNECTION_UPGRADE then true
          else decide (v.countByte.parser.method = .CONNECT) } }) hu.chunked hu.skipBody hu.length
    refine ⟨w, ?_, hevents.trans (congrArg (· ++ _) hu.events), hurl.trans hu.url,
      hfield.trans hu.field, hvalue.trans hu.value, hbody.trans hu.body⟩
    exact hflow
  obtain ⟨w, hflow, hevents, hurl, hfield, hvalue, hbody⟩ := hturn
  rw [feedAll, feed]
  rcases hflow with hflow | hflow
  · rw [hflow]
    exact congrArg Executed.returned hevents
  · rw [hflow]
    have hend : feedAll (w.grow LF) [] = .returned (w.grow LF).events :=
      atEnd_none (congrArg (Option.map (· ++ [LF])) hurl) (congrArg (Option.map (· ++ [LF])) hfield)
        (congrArg (Option.map (· ++ [LF])) hvalue) (congrArg (Option.map (· ++ [LF])) hbody)
    exact hend.trans (congrArg Executed.returned hevents)

theorem feedAll_request {r : RequestText} (h : r.Ok) :
    feedAll {} r.text = .returned (Handshakes.events r.headers) := by
  obtain ⟨v, hfed, hv⟩ := (leads_front h).append leads_lastCR {} rfl
  have htext : r.text = r.front ++ [CR] ++ [LF] := by
    rw [r.text_eq, List.append_assoc]
    rfl
  rw [htext, feedAll_append hfed, feedAll_lastLF hv, r.events_headers]

/-- **A request is reported** as its headers, whole and in order, and its end:
`http_parser_execute` takes its text apart as it was put together. -/
theorem request_reported {r : RequestText} (h : r.Ok)
    (hshort : r.text.length ≤ HTTP_MAX_HEADER_SIZE) :
    httpParserExecute r.text = .returned (Handshakes.events r.headers) := by
  rw [execute_bytewise hshort, feedAll_request h]

/-- What a browser sends, with an empty header and one without blanks. -/
def sampleText : RequestText where
  method := .GET
  target := strBytes "chat?room=1"
  major := chr '1'
  minor := chr '1'
  lines := [⟨strBytes "Host", strBytes " ", strBytes "127.0.0.1:6080"⟩,
    ⟨strBytes "Connection", strBytes " ", strBytes "keep-alive, Upgrade"⟩,
    ⟨strBytes "Upgrade", [], strBytes "websocket"⟩, ⟨strBytes "Cookie", strBytes " ", []⟩,
    ⟨strBytes "Sec-WebSocket-Key", strBytes "  ", strBytes "dGhlIHNhbXBsZSBub25jZQ=="⟩]

theorem request_reported_sample : sampleText.Ok ∧
    sampleText.text.length ≤ HTTP_MAX_HEADER_SIZE ∧
      httpParserExecute sampleText.text = .returned (Handshakes.events sampleText.headers) := by
  have hok : sampleText.Ok := by decide +kernel
  have hshort : sampleText.text.length ≤ HTTP_MAX_HEADER_SIZE := by decide +kernel
  exact ⟨hok, hshort, request_reported hok hshort⟩

end LibuvServer.Http
