import LibuvServer.Netbus.WebProtocol
import Mathlib.Tactic.Common

/-!
# The HTTP parser

`http_parser_execute` of `package/http_parser/http_parser.c` on a new parser
for requests, with the callbacks the handshake sets. A pointer into the data is
the bytes from there on, and a mark is a pointer. `goto reexecute` calls the
`case` of the state that was set before it. What is said of a mark is a
parameter of the cases, so that they can also be run on something else than
pointers.
-/

namespace LibuvServer.Http

open LibuvServer.Netbus

/-! ## Types -/

/-- `enum state`, without the states of responses. -/
inductive State where
  | s_dead | s_start_req
  | s_req_method | s_req_spaces_before_url | s_req_schema | s_req_schema_slash
  | s_req_schema_slash_slash | s_req_server_start | s_req_server | s_req_server_with_at
  | s_req_path | s_req_query_string_start | s_req_query_string | s_req_fragment_start
  | s_req_fragment | s_req_http_start | s_req_http_H | s_req_http_HT | s_req_http_HTT
  | s_req_http_HTTP | s_req_http_I | s_req_http_IC | s_req_http_major | s_req_http_dot
  | s_req_http_minor | s_req_http_end | s_req_line_almost_done
  | s_header_field_start | s_header_field | s_header_value_discard_ws
  | s_header_value_discard_ws_almost_done | s_header_value_discard_lws | s_header_value_start
  | s_header_value | s_header_value_lws | s_header_almost_done
  | s_chunk_size_start | s_chunk_size | s_chunk_parameters | s_chunk_size_almost_done
  | s_headers_almost_done | s_headers_done
  | s_chunk_data | s_chunk_data_almost_done | s_chunk_data_done
  | s_body_identity | s_body_identity_eof | s_message_done
  deriving DecidableEq

/-- `PARSING_HEADER`. -/
def State.parsingHeader : State → Bool
  | s_chunk_data | s_chunk_data_almost_done | s_chunk_data_done | s_body_identity
  | s_body_identity_eof | s_message_done => false
  | _ => true

inductive HeaderState where
  | h_general | h_C | h_CO | h_CON
  | h_matching_connection | h_matching_proxy_connection | h_matching_content_length
  | h_matching_transfer_encoding | h_matching_upgrade
  | h_connection | h_content_length | h_content_length_num | h_content_length_ws
  | h_transfer_encoding | h_upgrade
  | h_matching_transfer_encoding_chunked | h_matching_connection_token_start
  | h_matching_connection_keep_alive | h_matching_connection_close
  | h_matching_connection_upgrade | h_matching_connection_token
  | h_transfer_encoding_chunked | h_connection_keep_alive | h_connection_close
  | h_connection_upgrade
  deriving DecidableEq

inductive Method where
  | DELETE | GET | HEAD | POST | PUT | CONNECT | OPTIONS | TRACE | COPY | LOCK | MKCOL | MOVE
  | PROPFIND | PROPPATCH | SEARCH | UNLOCK | BIND | REBIND | UNBIND | ACL | REPORT | MKACTIVITY
  | CHECKOUT | MERGE | MSEARCH | NOTIFY | SUBSCRIBE | UNSUBSCRIBE | PATCH | PURGE | MKCALENDAR
  | LINK | UNLINK | SOURCE
  deriving DecidableEq

/-- The errors a request can have. -/
inductive HttpErrno where
  | HEADER_OVERFLOW | CLOSED_CONNECTION | INVALID_VERSION | INVALID_METHOD | INVALID_URL
  | LF_EXPECTED | INVALID_HEADER_TOKEN | INVALID_CONTENT_LENGTH | UNEXPECTED_CONTENT_LENGTH
  | INVALID_CHUNK_SIZE | INVALID_CONSTANT | STRICT
  deriving DecidableEq

/-- The bits of `flags`. -/
structure Flags where
  F_CHUNKED : Bool := false
  F_CONNECTION_KEEP_ALIVE : Bool := false
  F_CONNECTION_CLOSE : Bool := false
  F_CONNECTION_UPGRADE : Bool := false
  F_TRAILING : Bool := false
  F_UPGRADE : Bool := false
  F_SKIPBODY : Bool := false
  F_CONTENTLENGTH : Bool := false
  deriving DecidableEq

/-- A parser of type `HTTP_REQUEST`, as `http_parser_init` makes it. -/
structure HttpParser where
  flags : Flags := {}
  state : State := .s_start_req
  header_state : HeaderState := .h_general
  index : Nat := 0
  nread : Nat := 0
  content_length : Nat := 0
  http_major : Nat := 0
  http_minor : Nat := 0
  method : Method := .DELETE
  upgrade : Bool := false
  deriving DecidableEq

/-- `nread += n`. -/
def HttpParser.addRead (n : Nat) (parser : HttpParser) : HttpParser :=
  { parser with nread := (parser.nread + n) % 2 ^ 32 }

def ULLONG_MAX : Nat := 2 ^ 64 - 1

/-- `max_header_size`, which nothing sets. -/
def HTTP_MAX_HEADER_SIZE : Nat := 80 * 1024

/-! ## Characters -/

def chr (c : Char) : UInt8 := c.toUInt8

def CR : UInt8 := 13

def LF : UInt8 := 10

def LOWER (c : UInt8) : UInt8 := c ||| 0x20

def IS_ALPHA (c : UInt8) : Bool := chr 'a' ≤ LOWER c && LOWER c ≤ chr 'z'

def IS_NUM (c : UInt8) : Bool := chr '0' ≤ c && c ≤ chr '9'

def IS_MARK (c : UInt8) : Bool := c ∈ strBytes "-_.!~*'()"

def IS_USERINFO_CHAR (c : UInt8) : Bool :=
  IS_ALPHA c || IS_NUM c || IS_MARK c || c ∈ strBytes "%;:&=+$,"

/-- The characters of `tokens` that are neither letters nor digits, without
the blank. -/
def tokenMarks : Bytes := strBytes "!#$%&'*+-.^_`|~"

/-- `TOKEN`, the strict one: letters come out as small ones. -/
def TOKEN (c : UInt8) : UInt8 :=
  if chr 'A' ≤ c ∧ c ≤ chr 'Z' then c + 32
  else if chr 'a' ≤ c ∧ c ≤ chr 'z' ∨ IS_NUM c = true ∨ c ∈ tokenMarks then c
  else 0

/-- `IS_URL_CHAR`, the strict one, by the bits of `normal_url_char`. -/
def IS_URL_CHAR (c : UInt8) : Bool := 33 ≤ c && c ≤ 126 && c ≠ chr '#' && c ≠ chr '?'

def IS_HEADER_CHAR (c : UInt8) : Bool := c = CR || c = LF || c = 9 || (31 < c && c ≠ 127)

/-- `unhex`: the table ends at 127, and what is left of it is 0. -/
def unhex (c : UInt8) : Option Nat :=
  if IS_NUM c then some (c.toNat - 48)
  else if chr 'A' ≤ c ∧ c ≤ chr 'F' then some (c.toNat - 55)
  else if chr 'a' ≤ c ∧ c ≤ chr 'f' then some (c.toNat - 87)
  else if 128 ≤ c then some 0
  else none

def PROXY_CONNECTION : Bytes := strBytes "proxy-connection"

def CONNECTION : Bytes := strBytes "connection"

def CONTENT_LENGTH : Bytes := strBytes "content-length"

def TRANSFER_ENCODING : Bytes := strBytes "transfer-encoding"

def UPGRADE : Bytes := strBytes "upgrade"

def CHUNKED : Bytes := strBytes "chunked"

def KEEP_ALIVE : Bytes := strBytes "keep-alive"

def CLOSE : Bytes := strBytes "close"

/-! ## Methods and URLs -/

def Method.string : Method → Bytes
  | DELETE => strBytes "DELETE" | GET => strBytes "GET" | HEAD => strBytes "HEAD"
  | POST => strBytes "POST" | PUT => strBytes "PUT" | CONNECT => strBytes "CONNECT"
  | OPTIONS => strBytes "OPTIONS" | TRACE => strBytes "TRACE" | COPY => strBytes "COPY"
  | LOCK => strBytes "LOCK" | MKCOL => strBytes "MKCOL" | MOVE => strBytes "MOVE"
  | PROPFIND => strBytes "PROPFIND" | PROPPATCH => strBytes "PROPPATCH"
  | SEARCH => strBytes "SEARCH" | UNLOCK => strBytes "UNLOCK" | BIND => strBytes "BIND"
  | REBIND => strBytes "REBIND" | UNBIND => strBytes "UNBIND" | ACL => strBytes "ACL"
  | REPORT => strBytes "REPORT" | MKACTIVITY => strBytes "MKACTIVITY"
  | CHECKOUT => strBytes "CHECKOUT" | MERGE => strBytes "MERGE" | MSEARCH => strBytes "M-SEARCH"
  | NOTIFY => strBytes "NOTIFY" | SUBSCRIBE => strBytes "SUBSCRIBE"
  | UNSUBSCRIBE => strBytes "UNSUBSCRIBE" | PATCH => strBytes "PATCH" | PURGE => strBytes "PURGE"
  | MKCALENDAR => strBytes "MKCALENDAR" | LINK => strBytes "LINK" | UNLINK => strBytes "UNLINK"
  | SOURCE => strBytes "SOURCE"

/-- `method_strings[method][index]`, the terminator included; there is nothing
behind it. -/
def Method.matcher (m : Method) (index : Nat) : Option UInt8 := (m.string ++ [0])[index]?

/-- The `switch` on the first character. -/
def Method.start (ch : UInt8) : Option Method :=
  if ch = chr 'A' then some ACL
  else if ch = chr 'B' then some BIND
  else if ch = chr 'C' then some CONNECT
  else if ch = chr 'D' then some DELETE
  else if ch = chr 'G' then some GET
  else if ch = chr 'H' then some HEAD
  else if ch = chr 'L' then some LOCK
  else if ch = chr 'M' then some MKCOL
  else if ch = chr 'N' then some NOTIFY
  else if ch = chr 'O' then some OPTIONS
  else if ch = chr 'P' then some POST
  else if ch = chr 'R' then some REPORT
  else if ch = chr 'S' then some SUBSCRIBE
  else if ch = chr 'T' then some TRACE
  else if ch = chr 'U' then some UNLOCK
  else none

/-- The `switch` on another character than the method has there. -/
def Method.change : Method → Nat → UInt8 → Option Method
  | POST, 1, ch =>
    if ch = chr 'U' then some PUT
    else if ch = chr 'A' then some PATCH
    else if ch = chr 'R' then some PROPFIND
    else none
  | PUT, 2, ch => if ch = chr 'R' then some PURGE else none
  | CONNECT, 1, ch => if ch = chr 'H' then some CHECKOUT else none
  | CONNECT, 2, ch => if ch = chr 'P' then some COPY else none
  | MKCOL, 1, ch =>
    if ch = chr 'O' then some MOVE
    else if ch = chr 'E' then some MERGE
    else if ch = chr '-' then some MSEARCH
    else none
  | MKCOL, 2, ch => if ch = chr 'A' then some MKACTIVITY else none
  | MKCOL, 3, ch => if ch = chr 'A' then some MKCALENDAR else none
  | SUBSCRIBE, 1, ch =>
    if ch = chr 'E' then some SEARCH
    else if ch = chr 'O' then some SOURCE
    else none
  | REPORT, 2, ch => if ch = chr 'B' then some REBIND else none
  | PROPFIND, 4, ch => if ch = chr 'P' then some PROPPATCH else none
  | LOCK, 1, ch => if ch = chr 'I' then some LINK else none
  | UNLOCK, 2, ch =>
    if ch = chr 'S' then some UNSUBSCRIBE
    else if ch = chr 'B' then some UNBIND
    else none
  | UNLOCK, 3, ch => if ch = chr 'I' then some UNLINK else none
  | _, _, _ => none

/-- `parse_url_char`. -/
def parseUrlChar (s : State) (ch : UInt8) : State :=
  if ch = chr ' ' ∨ ch = CR ∨ ch = LF ∨ ch = 9 ∨ ch = 12 then .s_dead
  else
    match s with
    | .s_req_spaces_before_url =>
      if ch = chr '/' ∨ ch = chr '*' then .s_req_path
      else if IS_ALPHA ch then .s_req_schema
      else .s_dead
    | .s_req_schema =>
      if IS_ALPHA ch then .s_req_schema
      else if ch = chr ':' then .s_req_schema_slash
      else .s_dead
    | .s_req_schema_slash => if ch = chr '/' then .s_req_schema_slash_slash else .s_dead
    | .s_req_schema_slash_slash => if ch = chr '/' then .s_req_server_start else .s_dead
    | .s_req_server_with_at | .s_req_server_start | .s_req_server =>
      if s = .s_req_server_with_at ∧ ch = chr '@' then .s_dead
      else if ch = chr '/' then .s_req_path
      else if ch = chr '?' then .s_req_query_string_start
      else if ch = chr '@' then .s_req_server_with_at
      else if IS_USERINFO_CHAR ch ∨ ch = chr '[' ∨ ch = chr ']' then .s_req_server
      else .s_dead
    | .s_req_path =>
      if IS_URL_CHAR ch then .s_req_path
      else if ch = chr '?' then .s_req_query_string_start
      else if ch = chr '#' then .s_req_fragment_start
      else .s_dead
    | .s_req_query_string_start | .s_req_query_string =>
      if IS_URL_CHAR ch ∨ ch = chr '?' then .s_req_query_string
      else if ch = chr '#' then .s_req_fragment_start
      else .s_dead
    | .s_req_fragment_start =>
      if IS_URL_CHAR ch ∨ ch = chr '?' then .s_req_fragment
      else if ch = chr '#' then .s_req_fragment_start
      else .s_dead
    | .s_req_fragment =>
      if IS_URL_CHAR ch ∨ ch = chr '?' ∨ ch = chr '#' then .s_req_fragment else .s_dead
    | _ => .s_dead

/-! ## The locals -/

/-- The parser and the locals of `http_parser_execute`: `nread` and `p_state`
are those of the parser. -/
structure Vars (Mark : Type) where
  parser : HttpParser := {}
  header_field_mark : Option Mark := none
  header_value_mark : Option Mark := none
  url_mark : Option Mark := none
  body_mark : Option Mark := none
  /-- The callbacks so far. -/
  events : List HttpEvent := []

/-- The place of a byte: a mark that is set there, and the bytes from a mark to
before it. -/
structure Place (Mark : Type) where
  here : Mark
  since : Mark → Bytes

/-- How the `case` of a byte ends. -/
inductive Flow (Mark : Type) where
  /-- `break`. -/
  | next (v : Vars Mark)
  /-- `RETURN`. -/
  | ret (v : Vars Mark)
  /-- `goto error`. -/
  | error (e : HttpErrno) (v : Vars Mark)
  /-- An assertion fails, or something is read that is not there. -/
  | faulted

section Cases

variable {Mark : Type}

/-- `UPDATE_STATE`. -/
def Vars.update (v : Vars Mark) (s : State) : Vars Mark :=
  { v with parser := { v.parser with state := s } }

def Vars.setHeaderState (v : Vars Mark) (h : HeaderState) : Vars Mark :=
  { v with parser := { v.parser with header_state := h } }

def Vars.setFlags (v : Vars Mark) (f : Flags) : Vars Mark :=
  { v with parser := { v.parser with flags := f } }

/-- `++parser->index`, a field of seven bits. -/
def Vars.incIndex (v : Vars Mark) : Vars Mark :=
  { v with parser := { v.parser with index := (v.parser.index + 1) % 2 ^ 7 } }

/-- `MARK(url)`. -/
def Vars.markUrl (v : Vars Mark) (place : Place Mark) : Vars Mark :=
  { v with url_mark := v.url_mark <|> some place.here }

def Vars.markField (v : Vars Mark) (place : Place Mark) : Vars Mark :=
  { v with header_field_mark := v.header_field_mark <|> some place.here }

def Vars.markValue (v : Vars Mark) (place : Place Mark) : Vars Mark :=
  { v with header_value_mark := v.header_value_mark <|> some place.here }

def Vars.markBody (v : Vars Mark) (place : Place Mark) : Vars Mark :=
  { v with body_mark := v.body_mark <|> some place.here }

/-- `CALLBACK_DATA(url)`: nothing is called. -/
def Vars.callUrl (v : Vars Mark) : Vars Mark := { v with url_mark := none }

def Vars.callBody (v : Vars Mark) : Vars Mark := { v with body_mark := none }

/-- `CALLBACK_DATA(header_field)`. -/
def Vars.callField (v : Vars Mark) (place : Place Mark) : Vars Mark :=
  { v with
    header_field_mark := none
    events := v.events ++ (v.header_field_mark.map fun m => .headerField (place.since m)).toList }

def Vars.callValue (v : Vars Mark) (place : Place Mark) : Vars Mark :=
  { v with
    header_value_mark := none
    events := v.events ++ (v.header_value_mark.map fun m => .headerValue (place.since m)).toList }

/-- `CALLBACK_NOTIFY(message_complete)`. -/
def Vars.complete (v : Vars Mark) : Vars Mark :=
  { v with events := v.events ++ [.messageComplete] }

/-- A `STRICT_CHECK`, and the state behind it. -/
def Vars.expect (v : Vars Mark) (ok : Prop) [Decidable ok] (s : State) : Flow Mark :=
  if ok then .next (v.update s) else .error .STRICT v

/-! ## The request line -/

def startReq (ch : UInt8) (v : Vars Mark) : Flow Mark :=
  if ch = CR ∨ ch = LF then .next v
  else
    let parser := { v.parser with flags := {}, content_length := ULLONG_MAX }
    if ¬ IS_ALPHA ch then .error .INVALID_METHOD { v with parser := parser }
    else
      let parser := { parser with method := .DELETE, index := 1 }
      match Method.start ch with
      | none => .error .INVALID_METHOD { v with parser := parser }
      | some m => .next { v with parser := { parser with method := m, state := .s_req_method } }

def reqMethod (ch : UInt8) (v : Vars Mark) : Flow Mark :=
  if ch = 0 then .error .INVALID_METHOD v
  else
    match v.parser.method.matcher v.parser.index with
    | none => .faulted
    | some x =>
      if ch = chr ' ' ∧ x = 0 then .next (v.update .s_req_spaces_before_url).incIndex
      else if ch = x then .next v.incIndex
      else if chr 'A' ≤ ch ∧ ch ≤ chr 'Z' ∨ ch = chr '-' then
        match Method.change v.parser.method v.parser.index ch with
        | none => .error .INVALID_METHOD v
        | some m => .next ({ v with parser := { v.parser with method := m } } : Vars Mark).incIndex
      else .error .INVALID_METHOD v

/-- The state after one more character of the URL. -/
def urlChar (ch : UInt8) (v : Vars Mark) : Flow Mark :=
  let v := v.update (parseUrlChar v.parser.state ch)
  if v.parser.state = .s_dead then .error .INVALID_URL v else .next v

def reqSpacesBeforeUrl (place : Place Mark) (ch : UInt8) (v : Vars Mark) : Flow Mark :=
  if ch = chr ' ' then .next v
  else
    let v := v.markUrl place
    urlChar ch (if v.parser.method = .CONNECT then v.update .s_req_server_start else v)

/-- `s_req_schema` to `s_req_server_start`. -/
def reqSchema (ch : UInt8) (v : Vars Mark) : Flow Mark :=
  if ch = chr ' ' ∨ ch = CR ∨ ch = LF then .error .INVALID_URL v else urlChar ch v

/-- `s_req_server` to `s_req_fragment`. -/
def reqUrl (ch : UInt8) (v : Vars Mark) : Flow Mark :=
  if ch = chr ' ' then .next (v.update .s_req_http_start).callUrl
  else if ch = CR ∨ ch = LF then
    let v := { v with parser := { v.parser with http_major := 0, http_minor := 9 } }
    .next (v.update (if ch = CR then .s_req_line_almost_done else .s_header_field_start)).callUrl
  else urlChar ch v

def reqHttpStart (ch : UInt8) (v : Vars Mark) : Flow Mark :=
  if ch = chr ' ' then .next v
  else if ch = chr 'H' then .next (v.update .s_req_http_H)
  else if ch = chr 'I' ∧ v.parser.method = .SOURCE then .next (v.update .s_req_http_I)
  else .error .INVALID_CONSTANT v

def reqHttpMajor (ch : UInt8) (v : Vars Mark) : Flow Mark :=
  if ¬ IS_NUM ch then .error .INVALID_VERSION v
  else .next { v with
    parser := { v.parser with http_major := ch.toNat - 48, state := .s_req_http_dot } }

def reqHttpDot (ch : UInt8) (v : Vars Mark) : Flow Mark :=
  if ch ≠ chr '.' then .error .INVALID_VERSION v else .next (v.update .s_req_http_minor)

def reqHttpMinor (ch : UInt8) (v : Vars Mark) : Flow Mark :=
  if ¬ IS_NUM ch then .error .INVALID_VERSION v
  else .next { v with
    parser := { v.parser with http_minor := ch.toNat - 48, state := .s_req_http_end } }

def reqHttpEnd (ch : UInt8) (v : Vars Mark) : Flow Mark :=
  if ch = CR then .next (v.update .s_req_line_almost_done)
  else if ch = LF then .next (v.update .s_header_field_start)
  else .error .INVALID_VERSION v

def reqLineAlmostDone (ch : UInt8) (v : Vars Mark) : Flow Mark :=
  if ch ≠ LF then .error .LF_EXPECTED v else .next (v.update .s_header_field_start)

/-! ## The end of a message -/

/-- `http_message_needs_eof` of a request. -/
def messageNeedsEof (_ : HttpParser) : Bool := false

/-- `http_should_keep_alive`. -/
def shouldKeepAlive (parser : HttpParser) : Bool :=
  if parser.http_major > 0 ∧ parser.http_minor > 0 then
    if parser.flags.F_CONNECTION_CLOSE then false else !messageNeedsEof parser
  else if !parser.flags.F_CONNECTION_KEEP_ALIVE then false
  else !messageNeedsEof parser

/-- `UPDATE_STATE(NEW_MESSAGE())` and the callback. -/
def Vars.newMessage (v : Vars Mark) : Vars Mark :=
  (v.update (if shouldKeepAlive v.parser then .s_start_req else .s_dead)).complete

def messageDone (v : Vars Mark) : Flow Mark :=
  if v.parser.upgrade then .ret v.newMessage else .next v.newMessage

def headersDone (ch : UInt8) (v : Vars Mark) : Flow Mark :=
  if ch ≠ LF then .error .STRICT v
  else
    let v := { v with parser := { v.parser with nread := 0 } }
    let flags := v.parser.flags
    let length := v.parser.content_length
    let hasBody := flags.F_CHUNKED || (length > 0 && length ≠ ULLONG_MAX)
    if v.parser.upgrade ∧ (v.parser.method = .CONNECT ∨ flags.F_SKIPBODY ∨ ¬ hasBody) then
      .ret v.newMessage
    else if flags.F_SKIPBODY then .next v.newMessage
    else if flags.F_CHUNKED then .next (v.update .s_chunk_size_start)
    else if length = 0 then .next v.newMessage
    else if length ≠ ULLONG_MAX then .next (v.update .s_body_identity)
    else if !messageNeedsEof v.parser then .next v.newMessage
    else .next (v.update .s_body_identity_eof)

def headersAlmostDone (ch : UInt8) (v : Vars Mark) : Flow Mark :=
  if ch ≠ LF then .error .STRICT v
  else
    let flags := v.parser.flags
    if flags.F_TRAILING then messageDone (v.update .s_message_done)
    else if flags.F_CHUNKED ∧ flags.F_CONTENTLENGTH then .error .UNEXPECTED_CONTENT_LENGTH v
    else
      let upgrade :=
        if flags.F_UPGRADE ∧ flags.F_CONNECTION_UPGRADE then true
        else decide (v.parser.method = .CONNECT)
      headersDone ch { v with
        parser := { v.parser with state := .s_headers_done, upgrade := upgrade } }

/-! ## Headers -/

/-- The `header_state` for the first character of a name. -/
def fieldStart (c : UInt8) : HeaderState :=
  if c = chr 'c' then .h_C
  else if c = chr 'p' then .h_matching_proxy_connection
  else if c = chr 't' then .h_matching_transfer_encoding
  else if c = chr 'u' then .h_matching_upgrade
  else .h_general

def headerFieldStart (place : Place Mark) (ch : UInt8) (v : Vars Mark) : Flow Mark :=
  if ch = CR then .next (v.update .s_headers_almost_done)
  else if ch = LF then headersAlmostDone ch (v.update .s_headers_almost_done)
  else if TOKEN ch = 0 then .error .INVALID_HEADER_TOKEN v
  else
    let v := v.markField place
    .next { v with parser := { v.parser with
      index := 0, state := .s_header_field, header_state := fieldStart (TOKEN ch) } }

/-- A name that is matched with `word`, a C string: `index` has been counted on,
and more than the terminator is not read. -/
def matching (word : Bytes) (index : Nat) (c : UInt8) (now found other : HeaderState) :
    HeaderState :=
  if index > word.length ∨ c ≠ (word ++ [0]).getD index 0 then other
  else if index = word.length - 1 then found
  else now

/-- The `switch` for another character of a name, with `c` its token; `none`
is `default`. -/
def fieldState (h : HeaderState) (index : Nat) (ch c : UInt8) : Option HeaderState :=
  match h with
  | .h_general => some .h_general
  | .h_C => some (if c = chr 'o' then .h_CO else .h_general)
  | .h_CO => some (if c = chr 'n' then .h_CON else .h_general)
  | .h_CON =>
    some (if c = chr 'n' then .h_matching_connection
      else if c = chr 't' then .h_matching_content_length
      else .h_general)
  | .h_matching_connection => some (matching CONNECTION index c h .h_connection .h_general)
  | .h_matching_proxy_connection =>
    some (matching PROXY_CONNECTION index c h .h_connection .h_general)
  | .h_matching_content_length =>
    some (matching CONTENT_LENGTH index c h .h_content_length .h_general)
  | .h_matching_transfer_encoding =>
    some (matching TRANSFER_ENCODING index c h .h_transfer_encoding .h_general)
  | .h_matching_upgrade => some (matching UPGRADE index c h .h_upgrade .h_general)
  | .h_connection | .h_content_length | .h_transfer_encoding | .h_upgrade =>
    some (if ch ≠ chr ' ' then .h_general else h)
  | _ => none

/-- The states in which the `switch` counts `index` on. -/
def HeaderState.counts : HeaderState → Bool
  | h_C | h_CO | h_CON | h_matching_connection | h_matching_proxy_connection
  | h_matching_content_length | h_matching_transfer_encoding | h_matching_upgrade
  | h_matching_transfer_encoding_chunked | h_matching_connection_keep_alive
  | h_matching_connection_close | h_matching_connection_upgrade => true
  | _ => false

/-- `parser->index` as a `switch` over this state leaves it. -/
def HeaderState.counted (h : HeaderState) (index : Nat) : Nat :=
  if h.counts then (index + 1) % 2 ^ 7 else index

/-- One character of a name, for the inner loop. -/
def fieldByte (ch : UInt8) (parser : HttpParser) : Option HttpParser :=
  let index := parser.header_state.counted parser.index
  (fieldState parser.header_state index ch (TOKEN ch)).map fun h =>
    { parser with header_state := h, index := index }

/-- The `switch` for the first character of a value, with the flags and the
length it sets. -/
def valueStart (ch : UInt8) (parser : HttpParser) : HttpErrno ⊕ HttpParser :=
  let c := LOWER ch
  match parser.header_state with
  | .h_upgrade =>
    .inr { parser with
      flags := { parser.flags with F_UPGRADE := true }, header_state := .h_general }
  | .h_transfer_encoding =>
    .inr { parser with
      header_state :=
        if c = chr 'c' then .h_matching_transfer_encoding_chunked else .h_general }
  | .h_content_length =>
    if ¬ IS_NUM ch then .inl .INVALID_CONTENT_LENGTH
    else if parser.flags.F_CONTENTLENGTH then .inl .UNEXPECTED_CONTENT_LENGTH
    else
      .inr { parser with
        flags := { parser.flags with F_CONTENTLENGTH := true }
        content_length := ch.toNat - 48
        header_state := .h_content_length_num }
  | .h_content_length_ws | .h_matching_connection_token_start => .inr parser
  | .h_connection =>
    .inr { parser with
      header_state :=
        if c = chr 'k' then .h_matching_connection_keep_alive
        else if c = chr 'c' then .h_matching_connection_close
        else if c = chr 'u' then .h_matching_connection_upgrade
        else .h_matching_connection_token }
  | _ => .inr { parser with header_state := .h_general }

def headerValueStart (place : Place Mark) (ch : UInt8) (v : Vars Mark) : Flow Mark :=
  let v := v.markValue place
  let v := { v with parser := { v.parser with state := .s_header_value, index := 0 } }
  match valueStart ch v.parser with
  | .inl e => .error e v
  | .inr parser => .next { v with parser := parser }

def headerValueDiscardWs (place : Place Mark) (ch : UInt8) (v : Vars Mark) : Flow Mark :=
  if ch = chr ' ' ∨ ch = 9 then .next v
  else if ch = CR then .next (v.update .s_header_value_discard_ws_almost_done)
  else if ch = LF then .next (v.update .s_header_value_discard_lws)
  else headerValueStart place ch v

/-- What is known of the connection once a header is finished. -/
def Flags.finish (flags : Flags) : HeaderState → Flags
  | .h_connection_keep_alive => { flags with F_CONNECTION_KEEP_ALIVE := true }
  | .h_connection_close => { flags with F_CONNECTION_CLOSE := true }
  | .h_transfer_encoding_chunked => { flags with F_CHUNKED := true }
  | .h_connection_upgrade => { flags with F_CONNECTION_UPGRADE := true }
  | _ => flags

def headerValueLws (place : Place Mark) (ch : UInt8) (v : Vars Mark) : Flow Mark :=
  if ch = chr ' ' ∨ ch = 9 then
    -- obsolete line folding is a space
    let v := if v.parser.header_state = .h_content_length_num then
      v.setHeaderState .h_content_length_ws else v
    headerValueStart place ch (v.update .s_header_value_start)
  else
    let v := v.setFlags (v.parser.flags.finish v.parser.header_state)
    headerFieldStart place ch (v.update .s_header_field_start)

def headerAlmostDone (ch : UInt8) (v : Vars Mark) : Flow Mark :=
  if ch ≠ LF then .error .LF_EXPECTED v else .next (v.update .s_header_value_lws)

def headerValueDiscardLws (place : Place Mark) (ch : UInt8) (v : Vars Mark) : Flow Mark :=
  if ch = chr ' ' ∨ ch = 9 then .next (v.update .s_header_value_discard_ws)
  else if v.parser.header_state = .h_content_length then .error .INVALID_CONTENT_LENGTH v
  else
    -- the value is empty
    let v := v.setFlags (v.parser.flags.finish v.parser.header_state)
    let v := ((v.markValue place).update .s_header_field_start).callValue place
    headerFieldStart place ch v

/-! ## Chunks -/

def chunkSizeStart (ch : UInt8) (v : Vars Mark) : Flow Mark :=
  if v.parser.nread ≠ 1 ∨ ¬ v.parser.flags.F_CHUNKED then .faulted
  else
    match unhex ch with
    | none => .error .INVALID_CHUNK_SIZE v
    | some n => .next { v with
        parser := { v.parser with content_length := n, state := .s_chunk_size } }

def chunkSize (ch : UInt8) (v : Vars Mark) : Flow Mark :=
  if ¬ v.parser.flags.F_CHUNKED then .faulted
  else if ch = CR then .next (v.update .s_chunk_size_almost_done)
  else
    match unhex ch with
    | none =>
      if ch = chr ';' ∨ ch = chr ' ' then .next (v.update .s_chunk_parameters)
      else .error .INVALID_CHUNK_SIZE v
    | some n =>
      if (ULLONG_MAX - 16) / 16 < v.parser.content_length then .error .INVALID_CONTENT_LENGTH v
      else .next { v with
        parser := { v.parser with content_length := v.parser.content_length * 16 + n } }

def chunkParameters (ch : UInt8) (v : Vars Mark) : Flow Mark :=
  if ¬ v.parser.flags.F_CHUNKED then .faulted
  else if ch = CR then .next (v.update .s_chunk_size_almost_done)
  else .next v

def chunkSizeAlmostDone (ch : UInt8) (v : Vars Mark) : Flow Mark :=
  if ¬ v.parser.flags.F_CHUNKED then .faulted
  else if ch ≠ LF then .error .STRICT v
  else
    let v := { v with parser := { v.parser with nread := 0 } }
    if v.parser.content_length = 0 then
      .next ((v.setFlags { v.parser.flags with F_TRAILING := true }).update .s_header_field_start)
    else .next (v.update .s_chunk_data)

def chunkDataAlmostDone (ch : UInt8) (v : Vars Mark) : Flow Mark :=
  if ¬ v.parser.flags.F_CHUNKED ∨ v.parser.content_length ≠ 0 then .faulted
  else if ch ≠ CR then .error .STRICT v
  else .next (v.update .s_chunk_data_done).callBody

def chunkDataDone (ch : UInt8) (v : Vars Mark) : Flow Mark :=
  if ¬ v.parser.flags.F_CHUNKED then .faulted
  else if ch ≠ LF then .error .STRICT v
  else .next { v with parser := { v.parser with nread := 0, state := .s_chunk_size_start } }

/-- The `switch` for the states in which one byte is looked at. -/
def switch (place : Place Mark) (ch : UInt8) (v : Vars Mark) : Flow Mark :=
  match v.parser.state with
  | .s_dead => if ch = CR ∨ ch = LF then .next v else .error .CLOSED_CONNECTION v
  | .s_start_req => startReq ch v
  | .s_req_method => reqMethod ch v
  | .s_req_spaces_before_url => reqSpacesBeforeUrl place ch v
  | .s_req_schema | .s_req_schema_slash | .s_req_schema_slash_slash | .s_req_server_start =>
    reqSchema ch v
  | .s_req_server | .s_req_server_with_at | .s_req_path | .s_req_query_string_start
  | .s_req_query_string | .s_req_fragment_start | .s_req_fragment => reqUrl ch v
  | .s_req_http_start => reqHttpStart ch v
  | .s_req_http_H => v.expect (ch = chr 'T') .s_req_http_HT
  | .s_req_http_HT => v.expect (ch = chr 'T') .s_req_http_HTT
  | .s_req_http_HTT => v.expect (ch = chr 'P') .s_req_http_HTTP
  | .s_req_http_I => v.expect (ch = chr 'C') .s_req_http_IC
  | .s_req_http_IC => v.expect (ch = chr 'E') .s_req_http_HTTP
  | .s_req_http_HTTP => v.expect (ch = chr '/') .s_req_http_major
  | .s_req_http_major => reqHttpMajor ch v
  | .s_req_http_dot => reqHttpDot ch v
  | .s_req_http_minor => reqHttpMinor ch v
  | .s_req_http_end => reqHttpEnd ch v
  | .s_req_line_almost_done => reqLineAlmostDone ch v
  | .s_header_field_start => headerFieldStart place ch v
  | .s_header_value_discard_ws => headerValueDiscardWs place ch v
  | .s_header_value_discard_ws_almost_done => v.expect (ch = LF) .s_header_value_discard_lws
  | .s_header_value_discard_lws => headerValueDiscardLws place ch v
  | .s_header_value_start => headerValueStart place ch v
  | .s_header_value_lws => headerValueLws place ch v
  | .s_header_almost_done => headerAlmostDone ch v
  | .s_chunk_size_start => chunkSizeStart ch v
  | .s_chunk_size => chunkSize ch v
  | .s_chunk_parameters => chunkParameters ch v
  | .s_chunk_size_almost_done => chunkSizeAlmostDone ch v
  | .s_headers_almost_done => headersAlmostDone ch v
  | .s_headers_done => headersDone ch v
  | .s_chunk_data_almost_done => chunkDataAlmostDone ch v
  | .s_chunk_data_done => chunkDataDone ch v
  | .s_message_done => messageDone v
  -- these look at more than one byte
  | .s_header_field | .s_header_value | .s_chunk_data | .s_body_identity
  | .s_body_identity_eof => .faulted

end Cases

/-! ## Loops over several bytes -/

/-- How a loop over a name or a value ends: before a byte that is no part of
it, or at the end of the data. -/
inductive Scan where
  | stop (parser : HttpParser) (p : Bytes)
  | error (e : HttpErrno)
  | faulted

/-- The loop of `s_header_field`. A name that is no longer matched is passed in
a loop of its own, which looks at so many bytes more. -/
def scanField : Option Nat → HttpParser → Bytes → Scan
  | _, parser, [] => .stop parser []
  | some (n + 1), parser, ch :: p =>
    if TOKEN ch = 0 then .stop parser (ch :: p) else scanField (some n) parser p
  | _, parser, ch :: p =>
    if TOKEN ch = 0 then .stop parser (ch :: p)
    else if parser.header_state = .h_general then
      scanField (some (min (p.length + 1) HTTP_MAX_HEADER_SIZE - 1)) parser p
    else
      match fieldByte ch parser with
      | none => .faulted
      | some parser => scanField none parser p

/-- A digit of a `Content-Length`, or the blank behind it. -/
def contentLengthNum (ch : UInt8) (parser : HttpParser) : HttpErrno ⊕ HttpParser :=
  if ch = chr ' ' then .inr { parser with header_state := .h_content_length_ws }
  else if ¬ IS_NUM ch then .inl .INVALID_CONTENT_LENGTH
  else if (ULLONG_MAX - 10) / 10 < parser.content_length then .inl .INVALID_CONTENT_LENGTH
  else
    .inr { parser with
      content_length := parser.content_length * 10 + (ch.toNat - 48)
      header_state := .h_content_length_num }

/-- The `switch` for another character of a value; `none` where an assertion
fails. -/
def valueByte (ch : UInt8) (parser : HttpParser) : Option (HttpErrno ⊕ HttpParser) :=
  let c := LOWER ch
  let h := parser.header_state
  let index := h.counted parser.index
  let go (h : HeaderState) : Option (HttpErrno ⊕ HttpParser) :=
    some (.inr { parser with header_state := h, index := index })
  let token (flags : Flags) : Option (HttpErrno ⊕ HttpParser) :=
    some (.inr { parser with
      flags := flags, header_state := .h_matching_connection_token_start, index := 0 })
  match h with
  | .h_general => go .h_general
  | .h_connection | .h_transfer_encoding => none
  | .h_content_length =>
    if ch = chr ' ' then go .h_content_length else some (contentLengthNum ch parser)
  | .h_content_length_num => some (contentLengthNum ch parser)
  | .h_content_length_ws =>
    if ch = chr ' ' then go .h_content_length_ws else some (.inl .INVALID_CONTENT_LENGTH)
  | .h_matching_transfer_encoding_chunked =>
    go (matching CHUNKED index c h .h_transfer_encoding_chunked .h_general)
  | .h_matching_connection_token_start =>
    go (if c = chr 'k' then .h_matching_connection_keep_alive
      else if c = chr 'c' then .h_matching_connection_close
      else if c = chr 'u' then .h_matching_connection_upgrade
      else if TOKEN c ≠ 0 then .h_matching_connection_token
      else if c = chr ' ' ∨ c = 9 then .h_matching_connection_token_start
      else .h_general)
  | .h_matching_connection_keep_alive =>
    go (matching KEEP_ALIVE index c h .h_connection_keep_alive .h_matching_connection_token)
  | .h_matching_connection_close =>
    go (matching CLOSE index c h .h_connection_close .h_matching_connection_token)
  | .h_matching_connection_upgrade =>
    go (matching UPGRADE index c h .h_connection_upgrade .h_matching_connection_token)
  | .h_matching_connection_token =>
    if ch = chr ',' then token parser.flags else go .h_matching_connection_token
  | .h_transfer_encoding_chunked =>
    go (if ch ≠ chr ' ' then .h_general else .h_transfer_encoding_chunked)
  | .h_connection_keep_alive | .h_connection_close | .h_connection_upgrade =>
    if ch = chr ',' then token (parser.flags.finish h)
    else go (if ch ≠ chr ' ' then .h_matching_connection_token else h)
  | _ => go .h_general

/-- The loop of `s_header_value`. A value that nothing is looked for in is
passed in a loop of its own, which ends at `pe`; if there is more behind it,
the byte there is not looked at. -/
def scanValue : Option Nat → HttpParser → Bytes → Scan
  | _, parser, [] => .stop parser []
  | some 0, parser, _ :: p => scanValue none parser p
  | some (n + 1), parser, ch :: p =>
    if ch = CR ∨ ch = LF then .stop parser (ch :: p)
    else if ¬ IS_HEADER_CHAR ch then .error .INVALID_HEADER_TOKEN
    else scanValue (some n) parser p
  | none, parser, ch :: p =>
    if ch = CR ∨ ch = LF then .stop parser (ch :: p)
    else if ¬ IS_HEADER_CHAR ch then .error .INVALID_HEADER_TOKEN
    else if parser.header_state = .h_general then
      scanValue (some (min (p.length + 1) HTTP_MAX_HEADER_SIZE - 1)) parser p
    else
      match valueByte ch parser with
      | none => .faulted
      | some (.inl e) => .error e
      | some (.inr parser) => scanValue none parser p

/-! ## `http_parser_execute` -/

/-- The pointer `p`. -/
def pointer (p : Bytes) : Place Bytes := ⟨p, fun mark => mark.take (mark.length - p.length)⟩

/-- `COUNT_HEADER_SIZE`. -/
def countHeaderSize (n : Nat) (v : Vars Bytes) (k : Vars Bytes → Flow Bytes) : Flow Bytes :=
  let v := { v with parser := v.parser.addRead n }
  if v.parser.nread > HTTP_MAX_HEADER_SIZE then .error .HEADER_OVERFLOW v else k v

/-- `s_header_field` from `start` on, and where the loop over the data goes on. -/
def headerField (start : Bytes) (v : Vars Bytes) : Flow Bytes × Bytes :=
  match scanField none v.parser start with
  | .faulted => (.faulted, [])
  | .error e => (.error e v, [])
  | .stop parser [] => (countHeaderSize (start.length - 1) { v with parser := parser } .next, [])
  | .stop parser (ch :: p) =>
    (countHeaderSize (start.length - (p.length + 1)) { v with parser := parser } fun v =>
      if ch = chr ':' then
        .next ((v.update .s_header_value_discard_ws).callField (pointer (ch :: p)))
      else .error .INVALID_HEADER_TOKEN v, p)

/-- `s_header_value` from `start` on. -/
def headerValue (start : Bytes) (v : Vars Bytes) : Flow Bytes × Bytes :=
  match scanValue none v.parser start with
  | .faulted => (.faulted, [])
  | .error e => (.error e v, [])
  | .stop parser [] => (countHeaderSize (start.length - 1) { v with parser := parser } .next, [])
  | .stop parser (ch :: p) =>
    let v := ({ v with parser := parser } : Vars Bytes).update .s_header_almost_done
    if ch = CR then
      (countHeaderSize (start.length - (p.length + 1)) (v.callValue (pointer (ch :: p))) .next, p)
    else
      (countHeaderSize (start.length - (p.length + 1)) v fun v =>
        headerAlmostDone ch (v.callValue (pointer (ch :: p))), p)

/-- `s_body_identity`. -/
def bodyIdentity (start : Bytes) (v : Vars Bytes) : Flow Bytes × Bytes :=
  let toRead := min v.parser.content_length start.length
  if v.parser.content_length = 0 ∨ v.parser.content_length = ULLONG_MAX then (.faulted, [])
  else
    let length := v.parser.content_length - toRead
    let v := v.markBody (pointer start)
    let v := { v with parser := { v.parser with content_length := length } }
    (if length = 0 then messageDone (v.update .s_message_done).callBody else .next v,
      start.drop toRead)

/-- `s_chunk_data`. -/
def chunkData (start : Bytes) (v : Vars Bytes) : Flow Bytes × Bytes :=
  let toRead := min v.parser.content_length start.length
  if ¬ v.parser.flags.F_CHUNKED ∨ v.parser.content_length = 0 ∨
      v.parser.content_length = ULLONG_MAX then (.faulted, [])
  else
    let length := v.parser.content_length - toRead
    let v := v.markBody (pointer start)
    let v := { v with parser := { v.parser with content_length := length } }
    (.next (if length = 0 then v.update .s_chunk_data_almost_done else v), start.drop toRead)

/-- One turn of the loop over the data, from `ch :: p` on. -/
def turn (ch : UInt8) (p : Bytes) (v : Vars Bytes) : Flow Bytes × Bytes :=
  match v.parser.state with
  | .s_header_field => headerField (ch :: p) v
  | .s_header_value => headerValue (ch :: p) v
  | .s_body_identity => bodyIdentity (ch :: p) v
  | .s_body_identity_eof => (.next (v.markBody (pointer (ch :: p))), [])
  | .s_chunk_data => chunkData (ch :: p) v
  | _ => (switch (pointer (ch :: p)) ch v, p)

/-- What a call comes to: the callbacks it has made. -/
inductive Executed where
  | returned (events : List HttpEvent)
  | error (e : HttpErrno) (events : List HttpEvent)
  | faulted

def Executed.events : Executed → List HttpEvent
  | returned events | error _ events => events
  | faulted => []

/-- Callbacks for the marks that are left. One at most may be set. -/
def atEnd {Mark : Type} (place : Place Mark) (v : Vars Mark) : Executed :=
  if [v.header_field_mark.isSome, v.header_value_mark.isSome, v.url_mark.isSome,
      v.body_mark.isSome].count true ≤ 1 then
    .returned ((v.callField place).callValue place).events
  else .faulted

/-- What is left behind a name is the end of the data. -/
theorem scanField_suffix {inner : Option Nat} {parser parser' : HttpParser} {start p : Bytes}
    (h : scanField inner parser start = .stop parser' p) : p <:+ start := by
  fun_induction scanField inner parser start with
  | case1 | case2 | case4 =>
    cases h
    exact List.suffix_refl _
  | case3 _ _ _ _ _ ih | case5 _ _ _ _ _ _ _ ih | case7 _ _ _ _ _ _ _ _ _ ih =>
    exact (ih h).trans (List.suffix_cons _ _)
  | case6 => cases h

theorem scanValue_suffix {inner : Option Nat} {parser parser' : HttpParser} {start p : Bytes}
    (h : scanValue inner parser start = .stop parser' p) : p <:+ start := by
  fun_induction scanValue inner parser start with
  | case1 | case3 | case6 =>
    cases h
    exact List.suffix_refl _
  | case2 _ _ _ ih | case5 _ _ _ _ _ _ ih | case8 _ _ _ _ _ _ ih
  | case11 _ _ _ _ _ _ _ _ ih => exact (ih h).trans (List.suffix_cons _ _)
  | case4 | case7 | case9 | case10 => cases h

/-- A turn takes a byte at least. -/
theorem turn_le (ch : UInt8) (p : Bytes) (v : Vars Bytes) :
    (turn ch p v).2.length ≤ p.length := by
  unfold turn
  split
  · unfold headerField
    split
    · exact Nat.zero_le _
    · exact Nat.zero_le _
    · exact Nat.zero_le _
    · rename_i hscan
      exact Nat.le_of_succ_le_succ (scanField_suffix hscan).length_le
  · unfold headerValue
    split
    · exact Nat.zero_le _
    · exact Nat.zero_le _
    · exact Nat.zero_le _
    · rename_i hscan
      have hle := (scanValue_suffix hscan).length_le
      split <;> exact Nat.le_of_succ_le_succ hle
  · unfold bodyIdentity
    split
    · exact Nat.zero_le _
    · simp only [List.length_drop, List.length_cons]
      omega
  · exact Nat.zero_le _
  · unfold chunkData
    split
    · exact Nat.zero_le _
    · simp only [List.length_drop, List.length_cons]
      omega
  · exact Nat.le_refl _

/-- `COUNT_HEADER_SIZE(1)` in a header, but for the comparison. -/
def Vars.countByte {Mark : Type} (v : Vars Mark) : Vars Mark :=
  if v.parser.state.parsingHeader then { v with parser := v.parser.addRead 1 } else v

/-- The loop over the data. -/
def loop (v : Vars Bytes) : Bytes → Executed
  | [] => atEnd (pointer []) v
  | ch :: p =>
    let v := v.countByte
    if v.parser.state.parsingHeader ∧ v.parser.nread > HTTP_MAX_HEADER_SIZE then
      .error .HEADER_OVERFLOW v.events
    else
      match (turn ch p v).1 with
      | .next v' => loop v' (turn ch p v).2
      | .ret v' => .returned v'.events
      | .error e v' => .error e v'.events
      | .faulted => .faulted
termination_by p => p.length
decreasing_by exact Nat.lt_succ_of_le (turn_le ch p _)

/-- `http_parser_execute` on a new parser. -/
def httpParserExecute (data : Bytes) : Executed := loop {} data

end LibuvServer.Http
