import LibuvServer.Lib.Heap
import LibuvServer.Mylua.SentMessages
import Mathlib.Tactic.Common

/-!
# Messages a conversion leaves

`luaTableToProtobuf` over the messages it makes and releases. A message under
construction is live while the values of its fields are converted, which are
messages of their own for a time. What is made and what is refused is said by
the tables and the types alone.
-/

namespace LibuvServer.Mylua.Proto

open LibuvServer.Lib LibuvServer.Netbus

variable {F T : Type}

namespace Live

/-- Code that makes and releases messages, and may stop. -/
abbrev Prog (α : Type) : Type := StateT (Heap Unit) (Except Stop) α

/-- What does not touch the messages. -/
def lift {α : Type} (x : Except Stop α) : Prog α := fun heap => x.map fun a => (a, heap)

/-- `protocolType->New()`. -/
def new : Prog Nat := fun heap =>
  match Heap.alloc () heap with
  | some result => .ok result
  | none => .error .undefined

/-- `protocolManager::releaseMessage`: `delete`, which takes `NULL` too. A
message that is not live is not released. -/
def releaseMessage : Option Nat → Prog Unit
  | none => pure ()
  | some message => fun heap =>
    match Heap.release (fun _ => true) message heap with
    | some result => .ok result
    | none => .error .undefined

section Convert

variable (lua : LuaNumbers F) (pool : DescriptorPool F) (heap : LuaHeap T F)

-- what converts a table: a message and where it is, or `NULL`
variable (convert : String → TValue T F → Prog (Option (Value F × Nat)))

/-- A value for a field. What a table was made into is copied and released. -/
def toValue (type : FieldType F) (v : TValue T F) : Prog (Option (Value F)) :=
  match type with
  | .scalar cpp_type _ _ => do
    let s ← lift (toScalar lua cpp_type v)
    pure (some (.scalar s))
  | .message message_type =>
    match pool.findMessageTypeByName message_type with
    | none => lift (.error .undefined)
    | some d => do
      match ← convert d.name v with
      | none => pure none
      | some (value, message) => do
        let msg ← lift (copyFrom message_type (some value))
        releaseMessage (some message)
        pure msg

/-- The loop with `lua_next`. When an element is not converted, `value` is
released, which is `NULL`. -/
def addValues (type : FieldType F) : List (LuaKey × TValue T F) → List (Value F) →
    Prog (Option (List (Value F)))
  | [], vs => pure (some vs)
  | (_, v) :: rest, vs => do
    match ← toValue lua pool convert type v with
    | none => do
      releaseMessage none
      pure none
    | some value => addValues type rest (vs ++ [value])

/-- The turn of one field of `message`. -/
def convertField (message : Nat) (fd : FieldDescriptor F) (v : TValue T F)
    (vs : List (Value F)) : Prog (Option (List (Value F))) :=
  let refuse : Prog (Option (List (Value F))) := do
    releaseMessage (some message)
    pure none
  if fd.is_repeated then
    match v with
    | .nil => pure (some vs)
    | .table elements => addValues lua pool convert fd.type (heap elements) vs
    | _ => refuse
  else
    match v with
    | .nil => if fd.is_required then refuse else pure (some vs)
    | v => do
      match ← toValue lua pool convert fd.type v with
      | none => refuse
      | some value => pure (some [value])

def convertFields (descriptor : Descriptor F) (message : Nat) (t : T) :
    List (FieldDescriptor F) → (Bytes → List (Value F)) → Prog (Option (Bytes → List (Value F)))
  | [], set => pure (some set)
  | fd :: fields, set => do
    let v := rawget heap t (.string fd.name)
    match ← convertField lua pool heap convert message fd v (set fd.name) with
    | none => pure none
    | some vs => convertFields descriptor message t fields (afterTurn descriptor fd v vs set)

end Convert

/-- `luaTableToProtobuf`, at most `depth` calls deep. -/
def luaTableToProtobuf (lua : LuaNumbers F) (pool : DescriptorPool F) (heap : LuaHeap T F) :
    Nat → String → TValue T F → Prog (Option (Value F × Nat))
  | 0, _, _ => lift (.error .deep)
  | depth + 1, name, v =>
    match v, pool.findMessageTypeByName name with
    | .table t, some descriptor => do
      let message ← new
      match ← convertFields lua pool heap (luaTableToProtobuf lua pool heap depth) descriptor
          message t descriptor.fields noneSet with
      | none => pure none
      | some set => pure (some (.message name set, message))
    | _, _ => pure none

end Live

/-! ## What is wanted -/

/-- One message more is live, and it is the one that is returned; none more
when none is. -/
def Owned (live : Nat → Option Unit) : Option (Value F × Nat) → Heap Unit → Prop
  | none, heap => heap.live = live
  | some (_, message), heap =>
    live message = none ∧ heap.live = Function.update live message (some ())

/-- The conversion returns, and leaves what its caller owns. -/
def Released (lua : LuaNumbers F) (pool : DescriptorPool F) (heap : LuaHeap T F) (name : String)
    (v : TValue T F) : Prop :=
  ∃ depth, ∀ messages, ∃ result messages',
    Live.luaTableToProtobuf lua pool heap depth name v messages = .ok (result, messages') ∧
      Owned messages.live result messages'

/-! ## What is made and what is refused -/

/-- The fields can be made from the table. -/
inductive Made (lua : LuaNumbers F) (pool : DescriptorPool F) (heap : LuaHeap T F) :
    List (FieldDescriptor F) → T → Prop
  | mk {fields : List (FieldDescriptor F)} {t : T}
      (required : ∀ fd ∈ fields, fd.label = .required →
        rawget heap t (.string fd.name) ≠ .nil)
      (tables : ∀ fd ∈ fields, fd.label = .repeated →
        rawget heap t (.string fd.name) ≠ .nil →
          ∃ elements, rawget heap t (.string fd.name) = .table elements)
      (scalars : ∀ fd ∈ fields, ∀ cpp_type s fits, fd.type = .scalar cpp_type s fits →
        ∀ v ∈ given heap t fd, ∃ s', toScalar lua cpp_type v = .ok s')
      (messages : ∀ fd ∈ fields, ∀ type', fd.type = .message type' → ∀ v ∈ given heap t fd,
        ∃ t' d', v = .table t' ∧ pool.findMessageTypeByName type' = some d' ∧ d'.name = type')
      (inside : ∀ fd ∈ fields, ∀ type' d' t', fd.type = .message type' →
        pool.findMessageTypeByName type' = some d' → .table t' ∈ given heap t fd →
          Made lua pool heap d'.fields t') :
      Made lua pool heap fields t

/-- The value is refused for a type, and nothing that was made is lost: at a
field after others that can be made, and never at an element of a repeated
one. -/
inductive Refused (lua : LuaNumbers F) (pool : DescriptorPool F) (heap : LuaHeap T F) :
    String → TValue T F → Prop
  | noTable {name : String} {v : TValue T F} (h : ∀ t, v ≠ .table t) :
      Refused lua pool heap name v
  | noType {name : String} {v : TValue T F} (h : pool.findMessageTypeByName name = none) :
      Refused lua pool heap name v
  | required {name : String} {t : T} {d : Descriptor F} {pre post : List (FieldDescriptor F)}
      {fd : FieldDescriptor F} (hd : pool.findMessageTypeByName name = some d)
      (hfields : d.fields = pre ++ fd :: post) (hpre : Made lua pool heap pre t)
      (hlabel : fd.label = .required) (hnil : rawget heap t (.string fd.name) = .nil) :
      Refused lua pool heap name (.table t)
  | repeated {name : String} {t : T} {d : Descriptor F} {pre post : List (FieldDescriptor F)}
      {fd : FieldDescriptor F} (hd : pool.findMessageTypeByName name = some d)
      (hfields : d.fields = pre ++ fd :: post) (hpre : Made lua pool heap pre t)
      (hlabel : fd.label = .repeated) (hne : rawget heap t (.string fd.name) ≠ .nil)
      (htable : ∀ elements, rawget heap t (.string fd.name) ≠ .table elements) :
      Refused lua pool heap name (.table t)
  | message {name type' : String} {t : T} {d d' : Descriptor F}
      {pre post : List (FieldDescriptor F)} {fd : FieldDescriptor F}
      (hd : pool.findMessageTypeByName name = some d)
      (hfields : d.fields = pre ++ fd :: post) (hpre : Made lua pool heap pre t)
      (hlabel : fd.label ≠ .repeated) (hne : rawget heap t (.string fd.name) ≠ .nil)
      (htype : fd.type = .message type') (hd' : pool.findMessageTypeByName type' = some d')
      (hvalue : Refused lua pool heap d'.name (rawget heap t (.string fd.name))) :
      Refused lua pool heap name (.table t)

/-! ## Code over messages -/

namespace Live

section Rules

variable {α β γ δ : Type} {messages messages' : Heap Unit}

theorem bind_ok {m : Prog α} {f : α → Prog β} {a : α} (h : m messages = .ok (a, messages')) :
    (m >>= f) messages = f a messages' := by
  show (m messages >>= fun p => f p.1 p.2) = _
  rw [h]
  rfl

theorem bind_error {m : Prog α} {f : α → Prog β} {k : Stop} (h : m messages = .error k) :
    (m >>= f) messages = .error k := by
  show (m messages >>= fun p => f p.1 p.2) = _
  rw [h]
  rfl

/-- A new message was not live. -/
theorem new_eq (messages : Heap Unit) :
    ∃ message messages', new messages = .ok (message, messages') ∧
      messages.live message = none ∧
      messages'.live = Function.update messages.live message (some ()) := by
  obtain ⟨message, messages', hrun, hfree, hlive⟩ := Heap.alloc_ends () messages rfl
  refine ⟨message, messages', ?_, hfree, hlive⟩
  rw [new, hrun]

theorem releaseMessage_eq {message : Nat} (h : messages.live message = some ()) :
    ∃ messages', releaseMessage (some message) messages = .ok ((), messages') ∧
      messages'.live = Function.update messages.live message none := by
  obtain ⟨_, messages', hrun, hlive⟩ :=
    Heap.release_ends (fun _ => true) h rfl messages rfl
  refine ⟨messages', ?_, hlive⟩
  show (match Heap.release (fun _ => true) message messages with
    | some result => Except.ok result
    | none => Except.error Stop.undefined) = _
  rw [hrun]

/-- The message under construction is released, and `NULL` returned. -/
theorem refuse_eq {message : Nat} (h : messages.live message = some ()) :
    ∃ messages', (releaseMessage (some message) >>= fun _ => pure none : Prog (Option α))
        messages = .ok (none, messages') ∧
      messages'.live = Function.update messages.live message none := by
  obtain ⟨messages', hrelease, hlive⟩ := releaseMessage_eq h
  exact ⟨messages', bind_ok hrelease, hlive⟩

/-- The code over messages comes to what the code without them comes to: it
stops in the same way, or gives a value of which `S` holds, or none, with
`N`. -/
def Gives (S : α → β → Heap Unit → Prop) (N : Heap Unit → Prop) :
    Except Stop (Option α) → Except Stop (Option β × Heap Unit) → Prop
  | .error k, run => run = .error k
  | .ok (some a), run => ∃ b messages', run = .ok (some b, messages') ∧ S a b messages'
  | .ok none, run => ∃ messages', run = .ok (none, messages') ∧ N messages'

/-- One after the other. -/
theorem Gives.bind {x : Except Stop (Option α)} {m : Prog (Option β)}
    {f : Option α → Except Stop (Option γ)} {g : Option β → Prog (Option δ)}
    {S : α → β → Heap Unit → Prop} {N : Heap Unit → Prop} {S' : γ → δ → Heap Unit → Prop}
    {N' : Heap Unit → Prop} (h : Gives S N x (m messages))
    (hsome : ∀ a b messages', x = .ok (some a) → S a b messages' →
      Gives S' N' (f (some a)) (g (some b) messages'))
    (hnone : ∀ messages', N messages' → Gives S' N' (f none) (g none messages')) :
    Gives S' N' (x >>= f) ((m >>= g) messages) := by
  cases x with
  | error k =>
    have hrun : m messages = .error k := h
    rw [bind_error hrun]
    rfl
  | ok r =>
    cases r with
    | none =>
      obtain ⟨messages', hrun, hN⟩ := h
      rw [bind_ok hrun]
      exact hnone messages' hN
    | some a =>
      obtain ⟨b, messages', hrun, hS⟩ := h
      rw [bind_ok hrun]
      exact hsome a b messages' rfl hS

theorem Gives.imp {x : Except Stop (Option α)} {run : Except Stop (Option β × Heap Unit)}
    {S S' : α → β → Heap Unit → Prop} {N N' : Heap Unit → Prop} (h : Gives S N x run)
    (hS : ∀ a b messages', S a b messages' → S' a b messages')
    (hN : ∀ messages', N messages' → N' messages') : Gives S' N' x run := by
  cases x with
  | error k => exact h
  | ok r =>
    cases r with
    | none =>
      obtain ⟨messages', hrun, h⟩ := h
      exact ⟨messages', hrun, hN messages' h⟩
    | some a =>
      obtain ⟨b, messages', hrun, h⟩ := h
      exact ⟨b, messages', hrun, hS a b messages' h⟩

end Rules

end Live

/-- Everything that was live still is, and something else too. -/
def Lost (live live' : Nat → Option Unit) : Prop :=
  (∀ id, live id ≠ none → live' id = live id) ∧ ∃ id, live id = none ∧ live' id ≠ none

/-- Where nothing is given: nothing is left, with `P`, or something is lost. -/
def Left (P : Prop) (live live' : Nat → Option Unit) : Prop :=
  P ∧ live' = live ∨ Lost live live'

theorem Lost.ne {live live' : Nat → Option Unit} (h : Lost live live') : live' ≠ live := by
  obtain ⟨-, id, hfree, hlive⟩ := h
  rintro rfl
  exact hlive hfree

/-- What was live stays live when nothing or something is left. -/
theorem Left.kept {P : Prop} {live live' : Nat → Option Unit} (h : Left P live live') {id : Nat}
    (hid : live id ≠ none) : live' id = live id := by
  rcases h with ⟨-, rfl⟩ | hlost
  · rfl
  · exact hlost.1 id hid

theorem Left.imp {P Q : Prop} {live live' : Nat → Option Unit} (h : Left P live live')
    (hPQ : P → Q) : Left Q live live' :=
  Or.imp (And.imp hPQ id) id h

/-- The message under construction goes, and the rest stays as it was left. -/
theorem Left.release {P Q : Prop} {live live' : Nat → Option Unit} (h : Left P live live')
    (hPQ : P → Q) {message : Nat} (hmessage : live message ≠ none) :
    Left Q (Function.update live message none) (Function.update live' message none) := by
  rcases h with ⟨hP, rfl⟩ | ⟨hkept, id, hfree, hlive⟩
  · exact .inl ⟨hPQ hP, rfl⟩
  · have hne : id ≠ message := by
      rintro rfl
      exact hmessage hfree
    refine .inr ⟨fun i hi => ?_, id, ?_, ?_⟩
    · by_cases heq : i = message
      · rw [heq, Function.update_self] at hi
        exact absurd rfl hi
      · rw [Function.update_of_ne heq] at hi ⊢
        rw [Function.update_of_ne heq]
        exact hkept i hi
    · rw [Function.update_of_ne hne]
      exact hfree
    · rw [Function.update_of_ne hne]
      exact hlive

/-- The message under construction stays, and nobody has it. -/
theorem lost_message {live live' : Nat → Option Unit} {message : Nat}
    (hmessage : live message = some ()) (hkept : ∀ id, live id ≠ none → live' id = live id) :
    Lost (Function.update live message none) live' := by
  refine ⟨fun id hid => ?_, message, Function.update_self _ _ _, ?_⟩
  · by_cases heq : id = message
    · rw [heq, Function.update_self] at hid
      exact absurd rfl hid
    · rw [Function.update_of_ne heq] at hid ⊢
      exact hkept id hid
  · rw [hkept message (by rw [hmessage]; exact Option.some_ne_none _), hmessage]
    exact Option.some_ne_none _

/-! ## The conversion over messages -/

section Agree

variable {lua : LuaNumbers F} {pool : DescriptorPool F} {heap : LuaHeap T F}
  {conv : String → TValue T F → Except Stop (Option (Value F))}
  {convert : String → TValue T F → Live.Prog (Option (Value F × Nat))}
  {fd : FieldDescriptor F} {descriptor : Descriptor F} {t : T} {messages : Heap Unit}
  {message : Nat}

/-- What converts tables over messages agrees with what does without them. -/
def Agrees (lua : LuaNumbers F) (pool : DescriptorPool F) (heap : LuaHeap T F)
    (conv : String → TValue T F → Except Stop (Option (Value F)))
    (convert : String → TValue T F → Live.Prog (Option (Value F × Nat))) : Prop :=
  ∀ name v messages, Live.Gives
    (fun value r messages' => r.1 = value ∧ Owned messages.live (some r) messages')
    (fun messages' => Left (Refused lua pool heap name v) messages.live messages'.live)
    (conv name v) (convert name v messages)

/-- The field is refused, and nothing that was made for it is lost. -/
def FieldRefused (lua : LuaNumbers F) (pool : DescriptorPool F) (heap : LuaHeap T F)
    (fd : FieldDescriptor F) (t : T) : Prop :=
  fd.label = .required ∧ rawget heap t (.string fd.name) = .nil ∨
  (fd.label = .repeated ∧ rawget heap t (.string fd.name) ≠ .nil ∧
    ∀ elements, rawget heap t (.string fd.name) ≠ .table elements) ∨
  (fd.label ≠ .repeated ∧ rawget heap t (.string fd.name) ≠ .nil ∧
    ∃ type' d', fd.type = .message type' ∧ pool.findMessageTypeByName type' = some d' ∧
      Refused lua pool heap d'.name (rawget heap t (.string fd.name)))

theorem Refused.of_field {name : String} {d : Descriptor F} {pre post : List (FieldDescriptor F)}
    (hd : pool.findMessageTypeByName name = some d) (hfields : d.fields = pre ++ fd :: post)
    (hpre : Made lua pool heap pre t) (h : FieldRefused lua pool heap fd t) :
    Refused lua pool heap name (.table t) := by
  rcases h with ⟨hlabel, hnil⟩ | ⟨hlabel, hne, htable⟩ | ⟨hlabel, hne, type', d', htype, hd', hv⟩
  · exact .required hd hfields hpre hlabel hnil
  · exact .repeated hd hfields hpre hlabel hne htable
  · exact .message hd hfields hpre hlabel hne htype hd' hv

theorem copyFrom_ne_none {type : String} {value : Value F} :
    copyFrom type (some value) ≠ .ok none := by
  intro h
  cases value with
  | scalar s => cases h
  | message type' set =>
    rw [copyFrom] at h
    split at h
    · cases h
    · cases h

/-- A value for a field: what it was copied from is released. -/
theorem toValue_gives (hconv : Agrees lua pool heap conv convert) (type : FieldType F)
    (v : TValue T F) (messages : Heap Unit) :
    Live.Gives (fun w w' messages' => w = w' ∧ messages'.live = messages.live)
      (fun messages' => ∃ type' d', type = .message type' ∧
        pool.findMessageTypeByName type' = some d' ∧
          Left (Refused lua pool heap d'.name v) messages.live messages'.live)
      (toValue lua pool conv type v) (Live.toValue lua pool convert type v messages) := by
  cases type with
  | scalar cpp_type s fits =>
    rw [toValue, Live.toValue]
    cases hs : toScalar lua cpp_type v with
    | error k => exact Live.bind_error rfl
    | ok s' => exact ⟨_, messages, Live.bind_ok rfl, rfl, rfl⟩
  | message type' =>
    rw [toValue, Live.toValue]
    cases hd : pool.findMessageTypeByName type' with
    | none => rfl
    | some d' =>
      refine (hconv d'.name v messages).bind ?_ ?_
      · rintro value ⟨value', message⟩ messages₁ - ⟨rfl, hfree, hlive⟩
        simp only
        cases hcopy : copyFrom type' (some value') with
        | error k => exact Live.bind_error rfl
        | ok r =>
          cases r with
          | none => exact absurd hcopy copyFrom_ne_none
          | some msg =>
            have hmessage : messages₁.live message = some () := by
              rw [hlive, Function.update_self]
            obtain ⟨messages₂, hrelease, hlive'⟩ := Live.releaseMessage_eq hmessage
            refine ⟨msg, messages₂, ?_, rfl, ?_⟩
            · have hlift : Live.lift (Except.ok (some msg)) messages₁ =
                  .ok (some msg, messages₁) := rfl
              rw [Live.bind_ok hlift, Live.bind_ok hrelease]
              rfl
            · rw [hlive', hlive]
              exact Heap.update_none hfree
      · intro messages' hleft
        exact ⟨messages', rfl, type', d', rfl, hd, hleft⟩

/-- The loop: an element that is refused leaves what was live live. -/
theorem addValues_gives (hconv : Agrees lua pool heap conv convert) (type : FieldType F)
    (entries : List (LuaKey × TValue T F)) (vs : List (Value F)) (messages : Heap Unit) :
    Live.Gives (fun w w' messages' => w = w' ∧ messages'.live = messages.live)
      (fun messages' => ∀ id, messages.live id ≠ none → messages'.live id = messages.live id)
      (addValues lua pool conv type entries vs)
      (Live.addValues lua pool convert type entries vs messages) := by
  induction entries generalizing vs messages with
  | nil => exact ⟨vs, messages, rfl, rfl, rfl⟩
  | cons e entries ih =>
    obtain ⟨key, v⟩ := e
    rw [addValues, Live.addValues]
    refine (toValue_gives hconv type v messages).bind ?_ ?_
    · rintro w w' messages₁ - ⟨rfl, hlive⟩
      have hrest := ih (vs ++ [w]) messages₁
      rw [hlive] at hrest
      exact hrest
    · rintro messages₁ ⟨type', d', -, -, hleft⟩
      exact ⟨messages₁, Live.bind_ok rfl, fun id hid => hleft.kept hid⟩

/-- The field is refused, and the message under construction is released. -/
theorem refuse_gives {S : List (Value F) → List (Value F) → Heap Unit → Prop} {P : Prop}
    (hmessage : messages.live message = some ()) (hP : P) :
    Live.Gives S
      (fun messages' => Left P (Function.update messages.live message none) messages'.live)
      (.ok none)
      ((Live.releaseMessage (some message) >>= fun _ => pure none : Live.Prog _) messages) := by
  obtain ⟨messages', hrefuse, hlive⟩ := Live.refuse_eq hmessage
  exact ⟨messages', hrefuse, .inl ⟨hP, hlive⟩⟩

/-- The turn of a singular field that is there. -/
theorem singular_gives (hconv : Agrees lua pool heap conv convert)
    (hmessage : messages.live message = some ()) (hlabel : fd.label ≠ .repeated)
    (hne : rawget heap t (.string fd.name) ≠ .nil) :
    Live.Gives (fun w w' messages' => w = w' ∧ messages'.live = messages.live)
      (fun messages' => Left (FieldRefused lua pool heap fd t)
        (Function.update messages.live message none) messages'.live)
      (toValue lua pool conv fd.type (rawget heap t (.string fd.name)) >>= fun r =>
        .ok (r.map fun value => [value]))
      ((Live.toValue lua pool convert fd.type (rawget heap t (.string fd.name)) >>= fun
        | none => Live.releaseMessage (some message) >>= fun _ => pure none
        | some value => pure (some [value])) messages) := by
  refine (toValue_gives hconv fd.type _ messages).bind ?_ ?_
  · rintro w w' messages₁ - ⟨rfl, hlive⟩
    exact ⟨[w], messages₁, rfl, rfl, hlive⟩
  · rintro messages₁ ⟨type', d', htype, hd', hleft⟩
    have hlive : messages.live message ≠ none := by
      rw [hmessage]
      exact Option.some_ne_none _
    have hmessage₁ : messages₁.live message = some () := by
      rw [hleft.kept hlive, hmessage]
    obtain ⟨messages', hrefuse, hlive'⟩ := Live.refuse_eq hmessage₁
    refine ⟨messages', hrefuse, ?_⟩
    show Left _ _ messages'.live
    rw [hlive']
    exact hleft.release (fun hv => .inr (.inr ⟨hlabel, hne, type', d', htype, hd', hv⟩)) hlive

theorem convertField_gives (hconv : Agrees lua pool heap conv convert) (vs : List (Value F))
    (hmessage : messages.live message = some ()) :
    Live.Gives (fun w w' messages' => w = w' ∧ messages'.live = messages.live)
      (fun messages' => Left (FieldRefused lua pool heap fd t)
        (Function.update messages.live message none) messages'.live)
      (convertField lua pool heap conv fd (rawget heap t (.string fd.name)) vs)
      (Live.convertField lua pool heap convert message fd (rawget heap t (.string fd.name)) vs
        messages) := by
  cases hrep : fd.is_repeated with
  | true =>
    have hlabel : fd.label = .repeated := of_decide_eq_true hrep
    unfold convertField Live.convertField
    rw [hrep, if_pos rfl, if_pos rfl]
    cases hv : rawget heap t (.string fd.name) with
    | nil => exact ⟨vs, messages, rfl, rfl, rfl⟩
    | table elements =>
      -- when an element is refused the message is not released
      exact (addValues_gives hconv fd.type (heap elements) vs messages).imp (fun _ _ _ h => h)
        fun _ hkept => .inr (lost_message hmessage hkept)
    | _ =>
      refine refuse_gives hmessage (.inr (.inl ⟨hlabel, ?_, fun elements => ?_⟩)) <;>
        · rw [hv]
          intro h
          cases h
  | false =>
    have hlabel : fd.label ≠ .repeated := of_decide_eq_false hrep
    by_cases hnil : rawget heap t (.string fd.name) = .nil
    · unfold convertField Live.convertField
      rw [hrep, hnil, if_neg Bool.false_ne_true, if_neg Bool.false_ne_true]
      cases hreq : fd.is_required with
      | true => exact refuse_gives hmessage (.inl ⟨of_decide_eq_true hreq, hnil⟩)
      | false => exact ⟨vs, messages, rfl, rfl, rfl⟩
    · have hsingular := singular_gives hconv hmessage hlabel hnil
      rw [convertField_singular hrep hnil]
      unfold Live.convertField
      rw [hrep, if_neg Bool.false_ne_true]
      cases hv : rawget heap t (.string fd.name) with
      | nil => exact absurd hv hnil
      | _ =>
        rw [hv] at hsingular
        exact hsingular

/-! ## What has been made -/

theorem Made.nil : Made lua pool heap [] t :=
  .mk (fun fd h => by cases h) (fun fd h => by cases h) (fun fd h => by cases h)
    (fun fd h => by cases h) fun fd h => by cases h

theorem Made.append {fields more : List (FieldDescriptor F)} (h : Made lua pool heap fields t)
    (h' : Made lua pool heap more t) : Made lua pool heap (fields ++ more) t := by
  cases h with
  | mk required tables scalars messages inside =>
    cases h' with
    | mk required' tables' scalars' messages' inside' =>
      exact .mk (List.forall_mem_append.mpr ⟨required, required'⟩)
        (List.forall_mem_append.mpr ⟨tables, tables'⟩)
        (List.forall_mem_append.mpr ⟨scalars, scalars'⟩)
        (List.forall_mem_append.mpr ⟨messages, messages'⟩)
        (List.forall_mem_append.mpr ⟨inside, inside'⟩)

/-- A message of the type can be made from the value. -/
def MadeFrom (lua : LuaNumbers F) (pool : DescriptorPool F) (heap : LuaHeap T F) (name : String)
    (v : TValue T F) : Prop :=
  ∃ t d, v = .table t ∧ pool.findMessageTypeByName name = some d ∧ Made lua pool heap d.fields t

/-- What is converted can be made. -/
def Makes (lua : LuaNumbers F) (pool : DescriptorPool F) (heap : LuaHeap T F)
    (conv : String → TValue T F → Except Stop (Option (Value F))) : Prop :=
  ∀ name v w, conv name v = .ok (some w) →
    (∃ set, w = .message name set) ∧ MadeFrom lua pool heap name v

/-- A field that was converted. -/
theorem made_field (hmakes : Makes lua pool heap conv) {vs vs' : List (Value F)}
    (h : convertField lua pool heap conv fd (rawget heap t (.string fd.name)) vs =
      .ok (some vs')) : Made lua pool heap [fd] t := by
  obtain ⟨hrequired, htables, hvalues⟩ := field_accepts_iff.mp ⟨vs', h⟩
  -- the values of a message field were made by the name of its type
  have hmessage : ∀ type', fd.type = .message type' → ∀ v ∈ given heap t fd,
      ∃ d', pool.findMessageTypeByName type' = some d' ∧ d'.name = type' ∧
        MadeFrom lua pool heap type' v := by
    intro type' htype v hv
    obtain ⟨w, hw⟩ := hvalues v hv
    rw [htype, toValue] at hw
    cases hd : pool.findMessageTypeByName type' with
    | none =>
      rw [hd] at hw
      cases hw
    | some d' =>
      rw [hd] at hw
      obtain ⟨value, hvalue, hcopy⟩ := bind_eq_ok.mp hw
      cases value with
      | none => cases hcopy
      | some value =>
        obtain ⟨⟨set, rfl⟩, hmade⟩ := hmakes _ _ _ hvalue
        rw [copyFrom] at hcopy
        split at hcopy
        · rename_i hname
          rw [hname] at hmade
          exact ⟨d', rfl, hname, hmade⟩
        · cases hcopy
  refine .mk ?_ ?_ ?_ ?_ ?_ <;> rw [List.forall_mem_singleton]
  · exact hrequired
  · exact htables
  · intro cpp_type s fits htype v hv
    obtain ⟨w, hw⟩ := hvalues v hv
    rw [htype, toValue] at hw
    obtain ⟨s', hs', -⟩ := bind_eq_ok.mp hw
    exact ⟨s', hs'⟩
  · intro type' htype v hv
    obtain ⟨d', hd', hname, t', -, rfl, -, -⟩ := hmessage type' htype v hv
    exact ⟨t', d', rfl, hd', hname⟩
  · intro type' d' t' htype hd' hv
    obtain ⟨-, -, -, t'', d'', heq, hd'', hmade⟩ := hmessage type' htype _ hv
    cases heq
    rw [hd', Option.some.injEq] at hd''
    rw [hd'']
    exact hmade

theorem made_fields (hmakes : Makes lua pool heap conv) {fields : List (FieldDescriptor F)}
    {set got : Bytes → List (Value F)}
    (h : convertFields lua pool heap conv descriptor t fields set = .ok (some got)) :
    Made lua pool heap fields t := by
  induction fields generalizing set with
  | nil => exact .nil
  | cons fd fields ih =>
    rw [convertFields, bind_eq_ok] at h
    obtain ⟨vs, hvs, hrest⟩ := h
    cases vs with
    | none => cases hrest
    | some vs => exact (made_field hmakes hvs).append (ih hrest)

theorem luaTableToProtobuf_makes (lua : LuaNumbers F) (pool : DescriptorPool F)
    (heap : LuaHeap T F) (n : Nat) : Makes lua pool heap (luaTableToProtobuf lua pool heap n) := by
  induction n with
  | zero =>
    intro name v w h
    cases h
  | succ n ih =>
    intro name v w h
    refine ⟨luaTableToProtobuf_type h, ?_⟩
    unfold luaTableToProtobuf at h
    split at h
    · rename_i t d hd
      obtain ⟨got, hgot, heq⟩ := bind_eq_ok.mp h
      cases got with
      | none => cases heq
      | some got => exact ⟨t, d, rfl, hd, made_fields ih hgot⟩
    · cases h

/-- All fields in their turn: when one is refused, those before it were made. -/
theorem convertFields_gives (hconv : Agrees lua pool heap conv convert)
    (hmakes : Makes lua pool heap conv) {fields : List (FieldDescriptor F)}
    {pre : List (FieldDescriptor F)} (hpre : Made lua pool heap pre t)
    (set : Bytes → List (Value F)) (hmessage : messages.live message = some ()) :
    Live.Gives (fun got got' messages' => got = got' ∧ messages'.live = messages.live)
      (fun messages' => Left
        (∃ pre' fd post, pre ++ fields = pre' ++ fd :: post ∧ Made lua pool heap pre' t ∧
          FieldRefused lua pool heap fd t)
        (Function.update messages.live message none) messages'.live)
      (convertFields lua pool heap conv descriptor t fields set)
      (Live.convertFields lua pool heap convert descriptor message t fields set messages) := by
  induction fields generalizing pre set messages with
  | nil => exact ⟨set, messages, rfl, rfl, rfl⟩
  | cons fd fields ih =>
    rw [convertFields, Live.convertFields]
    refine (convertField_gives hconv (set fd.name) hmessage).bind ?_ ?_
    · rintro vs vs' messages₁ hfield ⟨rfl, hlive⟩
      have hmade := hpre.append (made_field hmakes hfield)
      have hmessage₁ : messages₁.live message = some () := by rw [hlive, hmessage]
      have hrest :=
        ih hmade (afterTurn descriptor fd (rawget heap t (.string fd.name)) vs set) hmessage₁
      rw [hlive, List.append_assoc, List.singleton_append] at hrest
      exact hrest
    · intro messages' hleft
      exact ⟨messages', rfl, hleft.imp fun hrefused => ⟨pre, fd, fields, rfl, hpre, hrefused⟩⟩

/-- **Over messages** a table is converted as it is without them. -/
theorem luaTableToProtobuf_agrees (lua : LuaNumbers F) (pool : DescriptorPool F)
    (heap : LuaHeap T F) (n : Nat) :
    Agrees lua pool heap (luaTableToProtobuf lua pool heap n)
      (Live.luaTableToProtobuf lua pool heap n) := by
  induction n with
  | zero =>
    intro name v messages
    rfl
  | succ n ih =>
    intro name v messages
    have hnone : Refused lua pool heap name v → Live.Gives
        (fun value r messages' => r.1 = value ∧ Owned messages.live (some r) messages')
        (fun messages' => Left (Refused lua pool heap name v) messages.live messages'.live)
        (.ok none) ((pure none : Live.Prog (Option (Value F × Nat))) messages) :=
      fun hrefused => ⟨messages, rfl, .inl ⟨hrefused, rfl⟩⟩
    unfold luaTableToProtobuf Live.luaTableToProtobuf
    cases v with
    | table t =>
      cases hd : pool.findMessageTypeByName name with
      | none => exact hnone (.noType hd)
      | some d =>
        simp only
        obtain ⟨message, messages₁, hnew, hfree, hlive⟩ := Live.new_eq messages
        rw [Live.bind_ok hnew]
        have hmessage : messages₁.live message = some () := by rw [hlive, Function.update_self]
        refine (convertFields_gives ih (luaTableToProtobuf_makes lua pool heap n) .nil noneSet
          hmessage).bind ?_ ?_
        · rintro set set' messages₂ - ⟨rfl, hsame⟩
          exact ⟨_, messages₂, rfl, rfl, hfree, by rw [hsame, hlive]⟩
        · intro messages₂ hleft
          rw [hlive, Heap.update_none hfree] at hleft
          refine ⟨messages₂, rfl, hleft.imp ?_⟩
          rintro ⟨pre, fd, post, hfields, hpre, hrefused⟩
          exact .of_field hd hfields hpre hrefused
    | _ => exact hnone (.noTable fun t h => by cases h)

end Agree

/-! ## What can be made is made -/

section Runs

variable {lua : LuaNumbers F} {pool : DescriptorPool F} {heap : LuaHeap T F}
  {conv : String → TValue T F → Except Stop (Option (Value F))}
  {convert : String → TValue T F → Live.Prog (Option (Value F × Nat))}
  {fd : FieldDescriptor F} {descriptor : Descriptor F} {t : T} {messages : Heap Unit}
  {message : Nat}

theorem fields_run {fields : List (FieldDescriptor F)}
    (h : ∀ fd ∈ fields, ∀ vs, ∃ vs', convertField lua pool heap conv fd
      (rawget heap t (.string fd.name)) vs = .ok (some vs')) (set : Bytes → List (Value F)) :
    ∃ got, convertFields lua pool heap conv descriptor t fields set = .ok (some got) := by
  induction fields generalizing set with
  | nil => exact ⟨set, rfl⟩
  | cons fd fields ih =>
    obtain ⟨vs, hvs⟩ := h fd (.head _) (set fd.name)
    rw [convertFields, hvs]
    exact ih (fun fd' hfd' => h fd' (.tail _ hfd')) _

/-- Fields that can be made are made, at any depth that is enough. -/
theorem Made.runs {fields : List (FieldDescriptor F)} (h : Made lua pool heap fields t) :
    ∃ m, ∀ n, m ≤ n → ∀ (descriptor : Descriptor F) set,
      ∃ got, convertFields lua pool heap (luaTableToProtobuf lua pool heap n) descriptor t fields
        set = .ok (some got) := by
  induction h with
  | @mk fields t required tables scalars messages inside ih =>
    have hvalue : ∀ fd ∈ fields, ∀ v ∈ given heap t fd, ∃ m, ∀ n, m ≤ n →
        ∃ w, toValue lua pool (luaTableToProtobuf lua pool heap n) fd.type v = .ok (some w) := by
      intro fd hfd v hv
      cases htype : fd.type with
      | scalar cpp_type s fits =>
        obtain ⟨s', hs'⟩ := scalars fd hfd cpp_type s fits htype v hv
        refine ⟨0, fun n _ => ⟨.scalar s', ?_⟩⟩
        rw [toValue, hs']
        rfl
      | message type' =>
        obtain ⟨t', d', rfl, hd', hname⟩ := messages fd hfd type' htype v hv
        obtain ⟨m, hm⟩ := ih fd hfd type' d' t' htype hd' hv
        refine ⟨m + 1, fun n hn => ?_⟩
        cases n with
        | zero => omega
        | succ n =>
          obtain ⟨got, hgot⟩ := hm n (by omega) d' noneSet
          refine ⟨.message type' got, (toValue_message hd' hname).mpr ?_⟩
          simp only [luaTableToProtobuf, hd']
          exact bind_eq_ok.mpr ⟨some got, hgot, rfl⟩
    obtain ⟨m, hm⟩ := exists_depth hvalue
    exact ⟨m, fun n hn _ => fields_run fun fd hfd vs => field_accepts_iff.mpr
      ⟨required fd hfd, tables fd hfd, hm n hn fd hfd⟩⟩

/-- The fields before one that is refused leave nothing. -/
theorem live_pre (rest : List (FieldDescriptor F)) (hconv : Agrees lua pool heap conv convert)
    {pre : List (FieldDescriptor F)} {set got : Bytes → List (Value F)}
    (h : convertFields lua pool heap conv descriptor t pre set = .ok (some got))
    (hmessage : messages.live message = some ()) :
    ∃ messages', messages'.live = messages.live ∧
      Live.convertFields lua pool heap convert descriptor message t (pre ++ rest) set messages =
        Live.convertFields lua pool heap convert descriptor message t rest got messages' := by
  induction pre generalizing set messages with
  | nil =>
    cases h
    exact ⟨messages, rfl, rfl⟩
  | cons fd pre ih =>
    rw [convertFields, bind_eq_ok] at h
    obtain ⟨vs, hvs, hrest⟩ := h
    cases vs with
    | none => cases hrest
    | some vs =>
      have hgives := @convertField_gives _ _ _ _ _ _ _ fd t _ _ hconv (set fd.name) hmessage
      rw [hvs] at hgives
      obtain ⟨vs', messages₁, hrun, rfl, hlive⟩ := hgives
      have hmessage₁ : messages₁.live message = some () := by rw [hlive, hmessage]
      obtain ⟨messages', hlive', heq⟩ := ih hrest hmessage₁
      refine ⟨messages', hlive'.trans hlive, ?_⟩
      rw [List.cons_append, Live.convertFields, Live.bind_ok hrun]
      exact heq

/-- A table is refused at a field, and the message under construction goes. -/
theorem refused_at {name : String} {d : Descriptor F} {pre post : List (FieldDescriptor F)}
    {n : Nat} {got : Bytes → List (Value F)} (hd : pool.findMessageTypeByName name = some d)
    (hfields : d.fields = pre ++ fd :: post)
    (hpre : convertFields lua pool heap (luaTableToProtobuf lua pool heap n) d t pre noneSet =
      .ok (some got))
    (hfield : ∀ message messages vs, messages.live message = some () → ∃ messages',
      Live.convertField lua pool heap (Live.luaTableToProtobuf lua pool heap n) message fd
          (rawget heap t (.string fd.name)) vs messages = .ok (none, messages') ∧
        messages'.live = Function.update messages.live message none) (messages : Heap Unit) :
    ∃ messages', Live.luaTableToProtobuf lua pool heap (n + 1) name (.table t) messages =
        .ok (none, messages') ∧ messages'.live = messages.live := by
  obtain ⟨message, messages₁, hnew, hfree, hlive⟩ := Live.new_eq messages
  have hmessage : messages₁.live message = some () := by rw [hlive, Function.update_self]
  obtain ⟨messages₂, hsame, hrun⟩ :=
    live_pre (fd :: post) (luaTableToProtobuf_agrees lua pool heap n) hpre hmessage
  obtain ⟨messages₃, hrefuse, hlive₃⟩ := hfield message messages₂ (got fd.name)
    (by rw [hsame, hmessage])
  have hnone : Live.convertFields lua pool heap (Live.luaTableToProtobuf lua pool heap n) d
      message t d.fields noneSet messages₁ = .ok (none, messages₃) := by
    rw [hfields, hrun, Live.convertFields, Live.bind_ok hrefuse]
    rfl
  refine ⟨messages₃, ?_, ?_⟩
  · simp only [Live.luaTableToProtobuf, hd]
    rw [Live.bind_ok hnew, Live.bind_ok hnone]
    rfl
  · rw [hlive₃, hsame, hlive, Heap.update_none hfree]

/-- **What is refused** comes to `NULL`, and nothing is left. -/
theorem Refused.runs {name : String} {v : TValue T F} (h : Refused lua pool heap name v) :
    ∃ m, ∀ n, m ≤ n → ∀ messages, ∃ messages',
      Live.luaTableToProtobuf lua pool heap n name v messages = .ok (none, messages') ∧
        messages'.live = messages.live := by
  -- the fields before the one that is refused need a depth, and it another
  have hstep : ∀ {name t d pre post fd}, pool.findMessageTypeByName name = some d →
      d.fields = pre ++ fd :: post → Made lua pool heap pre t →
      (∃ m, ∀ n, m ≤ n → ∀ message messages vs, messages.live message = some () →
        ∃ messages', Live.convertField lua pool heap (Live.luaTableToProtobuf lua pool heap n)
            message fd (rawget heap t (.string fd.name)) vs messages = .ok (none, messages') ∧
          messages'.live = Function.update messages.live message none) →
      ∃ m, ∀ n, m ≤ n → ∀ messages, ∃ messages',
        Live.luaTableToProtobuf lua pool heap n name (.table t) messages =
          .ok (none, messages') ∧ messages'.live = messages.live := by
    intro name t d pre post fd hd hfields hpre ⟨m₂, hfield⟩
    obtain ⟨m₁, hmade⟩ := hpre.runs
    refine ⟨max m₁ m₂ + 1, fun n hn => ?_⟩
    cases n with
    | zero => omega
    | succ n =>
      obtain ⟨got, hgot⟩ := hmade n (by omega) d noneSet
      exact refused_at hd hfields hgot (hfield n (by omega))
  induction h with
  | @noTable name v h =>
    refine ⟨1, fun n hn messages => ?_⟩
    cases n with
    | zero => omega
    | succ n =>
      unfold Live.luaTableToProtobuf
      cases v with
      | table t => exact absurd rfl (h t)
      | _ => exact ⟨messages, rfl, rfl⟩
  | @noType name v h =>
    refine ⟨1, fun n hn messages => ?_⟩
    cases n with
    | zero => omega
    | succ n =>
      unfold Live.luaTableToProtobuf
      rw [h]
      cases v <;> exact ⟨messages, rfl, rfl⟩
  | @required name t d pre post fd hd hfields hpre hlabel hnil =>
    refine hstep hd hfields hpre ⟨0, fun n _ message messages vs hmessage => ?_⟩
    unfold Live.convertField FieldDescriptor.is_repeated FieldDescriptor.is_required
    rw [hnil, hlabel]
    exact Live.refuse_eq hmessage
  | @repeated name t d pre post fd hd hfields hpre hlabel hne htable =>
    refine hstep hd hfields hpre ⟨0, fun n _ message messages vs hmessage => ?_⟩
    unfold Live.convertField FieldDescriptor.is_repeated
    rw [hlabel]
    cases hv : rawget heap t (.string fd.name) with
    | nil => exact absurd hv hne
    | table elements => exact absurd hv (htable elements)
    | _ => exact Live.refuse_eq hmessage
  | @message name type' t d d' pre post fd hd hfields hpre hlabel hne htype hd' hvalue ih =>
    obtain ⟨m, hm⟩ := ih
    refine hstep hd hfields hpre ⟨m, fun n hn message messages vs hmessage => ?_⟩
    obtain ⟨messages₁, hconv, hlive⟩ := hm n hn messages
    have hvalue : Live.toValue lua pool (Live.luaTableToProtobuf lua pool heap n) fd.type
        (rawget heap t (.string fd.name)) messages = .ok (none, messages₁) := by
      simp only [Live.toValue, htype, hd']
      rw [Live.bind_ok hconv]
      rfl
    have hrep : fd.is_repeated = false := decide_eq_false hlabel
    unfold Live.convertField
    rw [hrep, if_neg Bool.false_ne_true]
    cases hv : rawget heap t (.string fd.name) with
    | nil => exact absurd hv hne
    | _ =>
      rw [hv] at hvalue
      simp only
      rw [Live.bind_ok hvalue, ← hlive]
      rw [← hlive] at hmessage
      exact Live.refuse_eq hmessage

end Runs

/-! ## The result -/

/-- A conversion that leaves what its caller owns has made a message, or
refused without a loss. -/
theorem Released.made_or_refused {lua : LuaNumbers F} {pool : DescriptorPool F}
    {heap : LuaHeap T F} {name : String} {v : TValue T F} (h : Released lua pool heap name v) :
    MadeFrom lua pool heap name v ∨ Refused lua pool heap name v := by
  obtain ⟨depth, hreleased⟩ := h
  obtain ⟨result, messages', hrun, howned⟩ := hreleased Heap.empty
  have hagrees := luaTableToProtobuf_agrees lua pool heap depth name v Heap.empty
  cases hplain : luaTableToProtobuf lua pool heap depth name v with
  | error k =>
    rw [hplain] at hagrees
    cases hrun.symm.trans hagrees
  | ok r =>
    rw [hplain] at hagrees
    cases r with
    | some w => exact .inl (luaTableToProtobuf_makes lua pool heap depth name v w hplain).2
    | none =>
      obtain ⟨messages₁, hrun₁, hleft⟩ := hagrees
      rw [hrun] at hrun₁
      cases hrun₁
      rcases hleft with ⟨hrefused, -⟩ | hlost
      · exact .inr hrefused
      · exact absurd howned hlost.ne

/-- **Tables that can be made, and those that are refused** before anything is
lost, leave what the caller owns, and no others do. -/
theorem messages_released (lua : LuaNumbers F) (pool : DescriptorPool F) (heap : LuaHeap T F)
    (name : String) (v : TValue T F) :
    Released lua pool heap name v ↔
      MadeFrom lua pool heap name v ∨ Refused lua pool heap name v := by
  constructor
  · exact Released.made_or_refused
  · intro h
    rcases h with ⟨t, d, rfl, hd, hmade⟩ | hrefused
    · obtain ⟨m, hm⟩ := hmade.runs
      obtain ⟨got, hgot⟩ := hm m (Nat.le_refl m) _ noneSet
      have hplain : luaTableToProtobuf lua pool heap (m + 1) name (.table t) =
          .ok (some (.message name got)) := by
        simp only [luaTableToProtobuf, hd]
        exact bind_eq_ok.mpr ⟨some got, hgot, rfl⟩
      refine ⟨m + 1, fun messages => ?_⟩
      have hagrees := luaTableToProtobuf_agrees lua pool heap (m + 1) name (.table t) messages
      rw [hplain] at hagrees
      obtain ⟨r, messages', hrun, -, howned⟩ := hagrees
      exact ⟨some r, messages', hrun, howned⟩
    · obtain ⟨m, hm⟩ := hrefused.runs
      refine ⟨m, fun messages => ?_⟩
      obtain ⟨messages', hrun, hlive⟩ := hm m (Nat.le_refl m) messages
      exact ⟨none, messages', hrun, hlive⟩

/-- A tree with its leaf, and among its trees a number. -/
def badTree : Table Int :=
  .mk [(.string (strBytes "leaf"), .table (.mk [])),
    (.string (strBytes "kids"), .table (.mk [(.integer 1, .integer 5)]))]

theorem mem_of_split {fields pre post : List (FieldDescriptor F)} {fd : FieldDescriptor F}
    (h : fields = pre ++ fd :: post) : fd ∈ fields := by
  rw [h]
  exact List.mem_append_right _ (.head _)

theorem field_of_tree {pre post : List (FieldDescriptor Int)} {fd : FieldDescriptor Int}
    (h : treeType.fields = pre ++ fd :: post) :
    fd = ⟨strBytes "leaf", .required, .message "Leaf", none⟩ ∨
      fd = ⟨strBytes "kids", .repeated, .message "Tree", none⟩ := by
  have hfd := mem_of_split h
  simpa only [treeType, List.mem_cons, List.not_mem_nil, or_false] using hfd

/-- Nothing is refused in a table for a leaf, where nothing is required. -/
theorem not_refused_leaf {t : Table Int} :
    ¬ Refused integerLua samplePool Table.entries "Leaf" (.table t) := by
  intro h
  cases h with
  | noTable h => exact h t rfl
  | noType h => cases h
  | required hd hfields _ hlabel _ =>
    cases hd
    rw [List.mem_singleton.mp (mem_of_split hfields)] at hlabel
    cases hlabel
  | repeated hd hfields _ hlabel _ _ =>
    cases hd
    rw [List.mem_singleton.mp (mem_of_split hfields)] at hlabel
    cases hlabel
  | message hd hfields _ _ _ htype _ _ =>
    cases hd
    rw [List.mem_singleton.mp (mem_of_split hfields)] at htype
    cases htype

/-- The tree that was begun is not released. -/
theorem messages_released_badTree :
    ¬ Released integerLua samplePool Table.entries "Tree" (.table badTree) := by
  have hleaf : rawget Table.entries badTree (.string (strBytes "leaf")) = .table (.mk []) :=
    rawget_self
  have hkids : rawget Table.entries badTree (.string (strBytes "kids")) =
      .table (.mk [(.integer 1, .integer 5)]) :=
    (rawget_other (by decide +kernel)).trans rawget_self
  intro h
  rcases h.made_or_refused with ⟨t, d, ht, hd, hmade⟩ | hrefused
  · cases ht
    cases hd
    cases hmade with
    | mk _ _ _ hmessages _ =>
      have hgiven :
          given Table.entries badTree ⟨strBytes "kids", .repeated, .message "Tree", none⟩ =
            [.integer 5] := by
        simp only [given, hkids]
        rfl
      obtain ⟨t', -, heq, -⟩ := hmessages _ (.tail _ (.head _)) "Tree" rfl (.integer 5)
        (by rw [hgiven]; exact .head _)
      cases heq
  · cases hrefused with
    | noTable h => exact h badTree rfl
    | noType h => cases h
    | required hd hfields _ hlabel hnil =>
      cases hd
      rcases field_of_tree hfields with rfl | rfl
      · cases hleaf.symm.trans hnil
      · cases hlabel
    | repeated hd hfields _ hlabel _ htable =>
      cases hd
      rcases field_of_tree hfields with rfl | rfl
      · cases hlabel
      · exact htable _ hkids
    | message hd hfields _ hlabel _ htype hd' hvalue =>
      cases hd
      rcases field_of_tree hfields with rfl | rfl
      · cases htype
        cases hd'
        rw [hleaf] at hvalue
        exact not_refused_leaf hvalue
      · exact hlabel rfl

end LibuvServer.Mylua.Proto
