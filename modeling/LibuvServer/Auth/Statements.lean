import LibuvServer.Auth.AccountUpgrades
import Mathlib.Tactic.Common

/-!
# Client text in statements

The statements that the auth scripts make of texts a client sent, read as
MySQL reads them. `string.format` puts the texts between the quotes of the
templates as they are.
-/

namespace LibuvServer.Auth

open LibuvServer.Lib LibuvServer.Netbus LibuvServer.Mylua

variable {Number : Type} (lib : LuaLib Number)

/-! ## The templates without their places -/

def selectGuestFront : Bytes :=
  strBytes "select nick , faceImage , status ,vip ,guestId from guest where guest_key = "

def insertGuestFront : Bytes :=
  strBytes "insert into guest (nick, faceImage , status, guest_key)values("

def selectAccountFront : Bytes := strBytes "select account from primaryInfo where account = "

def insertAccountFront : Bytes := strBytes "insert into primaryInfo (account, password)values("

/-- The tokens a query of `upgrade_guestAccount` should have. -/
def accountTokens (username password : Bytes) : QueryFunc → List SqlText.Token
  | .onAccount => SqlText.meant selectAccountFront [(username, strBytes ";")]
  | .onInserted => SqlText.meant insertAccountFront
      [(username, strBytes ","), (password, strBytes ");")]

/-- Every statement reads as its template with one literal in each quoted
place, which is the text the client sent. -/
structure TextsKept (gKey username password : Bytes) : Prop where
  getGuestInfo : ∀ (retFunc : RetFunc GuestRow) (env : Env) (finalsm : Bytes)
    (func : Env → QueryRes → List Act), env.mysql_conn = true →
    .mysqlQuery finalsm func ∈ getGuestInfo lib (.string gKey) retFunc env →
    SqlText.lex finalsm = some (SqlText.meant selectGuestFront [(gKey, strBytes ";")])
  registGuest : ∀ (retFunc : RetFunc GuestRow) (env : Env) (finalsm : Bytes)
    (func : Env → QueryRes → List Act), env.mysql_conn = true →
    .mysqlQuery finalsm func ∈ registGuest lib (.string gKey) retFunc env →
    ∃ numbers, SqlText.lex finalsm = some (SqlText.meant insertGuestFront
      [(strBytes "guest" ++ decimal env.random.1, numbers), (gKey, strBytes ");")])
  upgradeGuestAccount : ∀ (func : QueryFunc) (q : Query),
    (upgradeGuestAccount lib true username password ()).1.queries func = some q →
    SqlText.lex q.finalsm = some (accountTokens username password func)

/-! ## The statements as filled templates -/

theorem selectGuest_fill (gKey : Bytes) :
    strBytes "select nick , faceImage , status ,vip ,guestId from guest where guest_key = '" ++
      (gKey ++ strBytes "';") = SqlText.fill selectGuestFront [(gKey, strBytes ";")] := by
  have hfront :
      strBytes "select nick , faceImage , status ,vip ,guestId from guest where guest_key = '"
        = selectGuestFront ++ [SqlText.quote] := by decide +kernel
  have hback : strBytes "';" = SqlText.quote :: strBytes ";" := by decide +kernel
  rw [hfront, hback, List.append_assoc]
  rfl

theorem selectText_fill (username : Bytes) :
    selectText username = SqlText.fill selectAccountFront [(username, strBytes ";")] := by
  have hfront : strBytes "select account from primaryInfo where account = '" =
      selectAccountFront ++ [SqlText.quote] := by decide +kernel
  have hback : strBytes "';" = SqlText.quote :: strBytes ";" := by decide +kernel
  rw [selectText, hfront, hback, List.append_assoc]
  rfl

theorem insertText_fill (username password : Bytes) :
    insertText username password = SqlText.fill insertAccountFront
      [(username, strBytes ","), (password, strBytes ");")] := by
  have hfront : strBytes "insert into primaryInfo (account, password)values('" =
      insertAccountFront ++ [SqlText.quote] := by decide +kernel
  have hmiddle : strBytes "','" = SqlText.quote :: (strBytes "," ++ [SqlText.quote]) := by
    decide +kernel
  have hback : strBytes "');" = SqlText.quote :: strBytes ");" := by decide +kernel
  rw [insertText, hfront, hmiddle, hback, List.append_assoc]
  simp [SqlText.fill]

theorem lex_selectGuest (gKey : Bytes) :
    SqlText.lex (SqlText.fill selectGuestFront [(gKey, strBytes ";")]) =
      some (SqlText.meant selectGuestFront [(gKey, strBytes ";")]) ↔ SqlText.Verbatim gKey := by
  have hsep : SqlText.separated selectGuestFront [strBytes ";"] = true := by decide +kernel
  rw [SqlText.lex_fill_iff hsep]
  simp

/-- The statements of an upgrade. -/
theorem lex_statement (username password : Bytes) (func : QueryFunc) :
    SqlText.lex (statement username password func) =
      some (accountTokens username password func) ↔
      SqlText.Verbatim username ∧ (func = .onInserted → SqlText.Verbatim password) := by
  cases func with
  | onAccount =>
    have hsep : SqlText.separated selectAccountFront [strBytes ";"] = true := by decide +kernel
    rw [statement, selectText_fill, accountTokens, SqlText.lex_fill_iff hsep]
    simp
  | onInserted =>
    have hsep : SqlText.separated insertAccountFront [strBytes ",", strBytes ");"] = true := by
      decide +kernel
    rw [statement, insertText_fill, accountTokens, SqlText.lex_fill_iff hsep]
    simp

/-! ## The statements that are queued -/

theorem getGuestInfo_connected (gKey : Bytes) (retFunc : RetFunc GuestRow) {env : Env}
    (h : env.mysql_conn = true) :
    getGuestInfo lib (.string gKey) retFunc env =
      [.mysqlQuery (SqlText.fill selectGuestFront [(gKey, strBytes ";")]) (onSelect retFunc)] := by
  rw [getGuestInfo, if_pos h, strFormat_selectGuest]
  exact congrArg (fun sql => [Act.mysqlQuery sql (onSelect retFunc)]) (selectGuest_fill gKey)

/-- **Client text cannot change a statement** just when it stands for itself
between quotes: the key, the name and the password. -/
theorem client_texts (gKey username password : Bytes) :
    TextsKept lib gKey username password ↔
      SqlText.Verbatim gKey ∧ SqlText.Verbatim username ∧ SqlText.Verbatim password := by
  have hupgrading : Upgrading (statement username password) () (fun _ => .queued)
      (upgradeGuestAccount lib true username password ()) :=
    upgradeGuestAccount_connected username password ()
  have hqueued := fun func => hupgrading.queries func
  constructor
  · intro h
    have hguest := h.getGuestInfo (fun _ _ _ => []) ⟨true, true, 0, 0⟩ _ _ rfl
      (by rw [getGuestInfo_connected lib gKey _ rfl]; exact List.mem_singleton.mpr rfl)
    have hinsert := h.upgradeGuestAccount .onInserted _ (hqueued .onInserted)
    obtain ⟨husername, hpassword⟩ := (lex_statement username password .onInserted).mp hinsert
    exact ⟨(lex_selectGuest gKey).mp hguest, husername, hpassword rfl⟩
  · rintro ⟨hkey, husername, hpassword⟩
    refine ⟨fun retFunc env finalsm func hon hmem => ?_,
      fun retFunc env finalsm func hon hmem => ?_, fun func q hq => ?_⟩
    · rw [getGuestInfo_connected lib gKey _ hon, List.mem_singleton, Act.mysqlQuery.injEq] at hmem
      rw [hmem.1]
      exact (lex_selectGuest gKey).mpr hkey
    · -- no statement comes out of its format
      rw [registGuest_connected hon] at hmem
      cases hmem
    · rw [hqueued func] at hq
      cases hq
      exact (lex_statement username password func).mpr ⟨husername, fun _ => hpassword⟩

/-- A key that ends its literal. -/
theorem client_texts_key : ¬ TextsKept decimalLib (strBytes "x' or 'a'='a") [] [] := by
  intro h
  have hguest := h.getGuestInfo (fun _ _ _ => []) ⟨true, true, 0, 0⟩ _ _ rfl
    (by rw [getGuestInfo_connected decimalLib _ _ rfl]; exact List.mem_singleton.mpr rfl)
  revert hguest
  decide +kernel

end LibuvServer.Auth
