import LibuvServer.Netbus.SessionUv
import LibuvServer.Netbus.WebProtocol

/-!
# Listeners

`startWebServer`, `startTcpServer` and `uv_startTcpEvent` of
`netbus/netbus.cc`: the kind of a listener is a number in the `data` field of
its handle. Accepting a connection reads the kind there and stores the
session's address in its place, so that the next session takes the kind from
an address.
-/

namespace LibuvServer.Netbus

open WebProtocol (toInt32)

/-- The enumeration of `session_uv.h`. -/
def SocketType.number : SocketType → Nat
  | .TCP_SOCKET => 0
  | .WEB_SOCKET => 1

/-- A listening handle. -/
structure Listener where
  data : Nat

/-- `startTcpServer` and `startWebServer`, once the address is bound. -/
def startServer (kind : SocketType) : Listener := ⟨kind.number⟩

/-- `uv_startTcpEvent` for a session at this address: the `socketType` it gets. -/
def startTcpEvent (server : Listener) (session : Nat) : Listener × Int :=
  let socketType := toInt32 server.data
  (⟨session⟩, socketType)

/-- The `socketType` of every session, in the order they are accepted. -/
def acceptAll (server : Listener) : List Nat → List Int
  | [] => []
  | session :: sessions =>
    let accepted := startTcpEvent server session
    accepted.2 :: acceptAll accepted.1 sessions

/-- The protocol of `uv_readData`, which tests for one kind only. -/
def protocolOf (socketType : Int) : SocketType :=
  if socketType = SocketType.WEB_SOCKET.number then .WEB_SOCKET else .TCP_SOCKET

theorem number_lt (kind : SocketType) : kind.number < 2 := by
  cases kind <;> decide

/-- An address whose low 32 bits are the number of the kind. -/
theorem toInt32_eq_number {a : Nat} {kind : SocketType} :
    toInt32 a = kind.number ↔ a % 2 ^ 32 = kind.number := by
  have hkind := number_lt kind
  unfold toInt32
  rw [Int.bmod_def]
  split <;> omega

/-- **What a listener hands out**: its own kind first, and then the addresses
of the sessions before. -/
theorem acceptAll_eq (server : Listener) (session : Nat) (sessions : List Nat) :
    acceptAll server (session :: sessions)
      = (server.data :: (session :: sessions).dropLast).map toInt32 := by
  induction sessions generalizing server session with
  | nil =>
    simp only [acceptAll, startTcpEvent, List.dropLast_singleton, List.map_cons, List.map_nil]
  | cons next sessions ih =>
    have hrest := ih ⟨session⟩ next
    simp only [acceptAll, startTcpEvent] at hrest ⊢
    rw [List.dropLast_cons_of_ne_nil (List.cons_ne_nil next sessions), List.map_cons, hrest]

/-- **Listeners keep their kind** exactly when every session but the last lies
at an address whose low 32 bits are the number of the kind. -/
theorem listener_kind (kind : SocketType) (sessions : List Nat) :
    (∀ socketType ∈ acceptAll (startServer kind) sessions, socketType = kind.number) ↔
      ∀ a ∈ sessions.dropLast, a % 2 ^ 32 = kind.number := by
  cases sessions with
  | nil => exact ⟨nofun, nofun⟩
  | cons session sessions =>
    have hfirst : kind.number % 2 ^ 32 = kind.number := by
      have hkind := number_lt kind
      omega
    rw [acceptAll_eq]
    simp only [List.forall_mem_map, List.forall_mem_cons, toInt32_eq_number]
    exact ⟨fun h => h.2, fun h => ⟨hfirst, h⟩⟩

/-- The second client of a web listener. -/
theorem listener_kind_second : ¬ ∀ (kind : SocketType) (sessions : List Nat),
    ∀ socketType ∈ acceptAll (startServer kind) sessions, socketType = kind.number := by
  intro hall
  have hsecond := hall .WEB_SOCKET [4096, 8192] 4096 (by decide)
  cases hsecond

/-- Blocks of memory lie at even addresses, and no such address is the number
of a web session. -/
theorem protocol_even (server : Listener) {sessions : List Nat} (hserver : 2 ∣ server.data)
    (heven : ∀ a ∈ sessions, 2 ∣ a) :
    (acceptAll server sessions).map protocolOf = sessions.map fun _ => .TCP_SOCKET := by
  induction sessions generalizing server with
  | nil => rfl
  | cons session sessions ih =>
    rw [List.forall_mem_cons] at heven
    have htcp : protocolOf (toInt32 server.data) = .TCP_SOCKET := by
      refine if_neg ?_
      rw [toInt32_eq_number]
      change ¬ server.data % 2 ^ 32 = 1
      omega
    have hrest := ih ⟨session⟩ heven.1 heven.2
    simp only [acceptAll, startTcpEvent, List.map_cons, htcp, hrest]

/-- **A web listener** speaks the web protocol with its first client only. -/
theorem protocol_web {session : Nat} {sessions : List Nat} (hsession : 2 ∣ session)
    (heven : ∀ a ∈ sessions, 2 ∣ a) :
    (acceptAll (startServer .WEB_SOCKET) (session :: sessions)).map protocolOf
      = .WEB_SOCKET :: sessions.map fun _ => .TCP_SOCKET := by
  have hrest := protocol_even ⟨session⟩ hsession heven
  have hfirst : protocolOf (toInt32 (startServer .WEB_SOCKET).data) = .WEB_SOCKET := by decide
  simp only [acceptAll, startTcpEvent, List.map_cons, hrest, hfirst]

end LibuvServer.Netbus
