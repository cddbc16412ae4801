import SlurmWeb.Lib.PyValue
import SlurmWeb.Lib.Dict
import SlurmWeb.Permission.Roles

/-!
# The cache of authenticated users (slurmweb/views/agent.py, slurmweb/persistence/users_store.py)

After a login the gateway posts the user's profile to the agents, with the user's token. The agent takes
the name, the full name and the groups of the row from the payload, and the policy snapshot from the
policy of the user of the token.

| here | there |
| --- | --- |
| `cacheAuthenticatedUser` | `cache_authenticated_user` (agent.py:1542) |
| `upsertLdapUser` | `upsert_ldap_user` (users_store.py:51) |

* `own_rows` — while no payload names another user, a row changes by requests of its user only, and
  holds what the policy gave the user.
* `other_row_overwritten` — a payload that names another user.
-/

namespace SlurmWeb.Users

open Strings Py

variable {F : Type} [Python F]

/-- A row of `users`, under its `username`. -/
structure UserRow (F : Type) where
  fullname : Option Str
  groups : Value F
  policyRoles : List Str
  policyActions : List Str

abbrev Table (F : Type) : Type := Dict Str (UserRow F)

/-- What the database makes of the parameters of a statement. -/
structure Database (F : Type) where
  /-- The text a value becomes in a text column; `none` where it is refused. -/
  text : Value F → Option Str
  text_str : ∀ s t, text (.str s) = some t → t = s

/-- The user of a token. -/
structure TokenUser (F : Type) where
  login : Str
  fullname : Value F
  groups : List Str

def TokenUser.user (requester : TokenUser F) : User := .authenticated requester.login requester.groups

/-- A request, with the JSON of its body (`none` without any) and whether the statement it comes to is committed. -/
structure Request (F : Type) where
  requester : TokenUser F
  json : Value F
  commits : Bool

variable (db : Database F) (policy : FilePolicy)

/-- A text column that may be `NULL`. -/
def nullableText : Value F → Option (Option Str)
  | .none => some none
  | value => (db.text value).map some

/-- `upsert_ldap_user` (:51); a statement that fails is rolled back. -/
def upsertLdapUser (username fullname groups : Value F) (policyRoles policyActions : List Str) (commits : Bool)
    (table : Table F) : Table F :=
  if !username.truthy then table
  else match db.text username, nullableText db fullname with
    | some username, some fullname =>
      if commits then table.set username ⟨fullname, groups.or (.list []), policyRoles, policyActions⟩ else table
    | _, _ => table

/-- `_sorted_strings` of the roles and the actions of `file_roles_actions`. -/
def policySnapshot (user : User) : List Str × List Str :=
  (sortedStrings (policy.rolesActions user).1.dedup, sortedStrings (policy.rolesActions user).2.dedup)

/-- `payload.get("username") or request.user.login` -/
def usernameOf (requester : TokenUser F) (payload : List (Str × Value F)) : Value F :=
  (Value.get payload "username").or (.str requester.login)

def fullnameOf (requester : TokenUser F) (payload : List (Str × Value F)) : Value F :=
  if (Value.lookup payload "fullname").isSome then Value.get payload "fullname" else requester.fullname

def groupsOf (requester : TokenUser F) (payload : List (Str × Value F)) : Value F :=
  let groups := Value.get payload "groups"
  if groups.isNone then .list (requester.groups.map .str) else groups

/-- `cache_authenticated_user` (:1542): the table after the request. A body that is no object raises. -/
def cacheAuthenticatedUser (r : Request F) (table : Table F) : Table F :=
  let payload : Value F := if r.json.truthy then r.json else .dict []
  match payload with
  | .dict payload =>
    let (policyRoles, policyActions) := policySnapshot policy r.requester.user
    upsertLdapUser db (usernameOf r.requester payload) (fullnameOf r.requester payload) (groupsOf r.requester payload)
      policyRoles policyActions r.commits table
  | _ => table

def run (requests : List (Request F)) (table : Table F) : Table F :=
  requests.foldl (fun table r => cacheAuthenticatedUser db policy r table) table

/-! ## Rows of their own -/

/-- The payload names no user, or the one of the token. -/
def NamesOwn (r : Request F) : Prop :=
  ∀ payload, r.json = .dict payload →
    (Value.get payload "username").truthy = false ∨ Value.get payload "username" = .str r.requester.login

/-- The snapshot of every row is what the policy gave its user, whatever groups the user had. -/
def Snapshots (table : Table F) : Prop :=
  ∀ username row, table.get username = some row → ∃ groups,
    (row.policyRoles, row.policyActions) = policySnapshot policy (.authenticated username groups)

variable {db policy}

/-- A request leaves the table, or writes one row. -/
theorem cache_cases (r : Request F) (table : Table F) :
    cacheAuthenticatedUser db policy r table = table ∨
      ∃ payload username row, (r.json = .dict payload ∨ payload = []) ∧
        db.text (usernameOf r.requester payload) = some username ∧
        (row.policyRoles, row.policyActions) = policySnapshot policy r.requester.user ∧
        cacheAuthenticatedUser db policy r table = table.set username row := by
  have hupsert : ∀ payload, upsertLdapUser db (usernameOf r.requester payload) (fullnameOf r.requester payload)
      (groupsOf r.requester payload) (policySnapshot policy r.requester.user).1
        (policySnapshot policy r.requester.user).2
      r.commits table = table ∨ ∃ username row, db.text (usernameOf r.requester payload) = some username ∧
        (row.policyRoles, row.policyActions) = policySnapshot policy r.requester.user ∧
        upsertLdapUser db (usernameOf r.requester payload) (fullnameOf r.requester payload)
          (groupsOf r.requester payload)
          (policySnapshot policy r.requester.user).1 (policySnapshot policy r.requester.user).2 r.commits table =
            table.set username row := by
    intro payload
    unfold upsertLdapUser
    split
    · exact .inl rfl
    split
    next username fullname husername hfullname =>
      split
      · exact .inr ⟨username, _, husername, rfl, rfl⟩
      · exact .inl rfl
    next => exact .inl rfl
  unfold cacheAuthenticatedUser
  by_cases hjson : r.json.truthy = true
  · simp only [hjson, if_true]
    cases h : r.json with
    | dict payload =>
      rcases hupsert payload with hsame | ⟨username, row, husername, hrow, hset⟩
      · exact .inl hsame
      · exact .inr ⟨payload, username, row, .inl rfl, husername, hrow, hset⟩
    | _ => exact .inl rfl
  · simp only [hjson, Bool.false_eq_true, if_false]
    rcases hupsert [] with hsame | ⟨username, row, husername, hrow, hset⟩
    · exact .inl hsame
    · exact .inr ⟨[], username, row, .inr rfl, husername, hrow, hset⟩

/-- The row a request writes is its user's. -/
theorem username_own {r : Request F} (h : NamesOwn r) {payload : List (Str × Value F)}
    (hpayload : r.json = .dict payload ∨ payload = [])
    {username : Str} (htext : db.text (usernameOf r.requester payload) = some username) :
      username = r.requester.login := by
  have hvalue : usernameOf r.requester payload = .str r.requester.login := by
    rcases hpayload with hpayload | rfl
    · rcases h payload hpayload with hfalsy | hsame
      · rw [usernameOf, Value.or, hfalsy]
        rfl
      · rw [usernameOf, hsame, Value.or]
        split <;> rfl
    · rfl
  rw [hvalue] at htext
  exact db.text_str _ _ htext

theorem cache_keeps {r : Request F} (h : NamesOwn r) {username : Str}
    (hother : r.requester.login ≠ username) (table : Table F) :
    (cacheAuthenticatedUser db policy r table).get username = table.get username := by
  rcases cache_cases r table with hsame | ⟨payload, name, row, hpayload, htext, -, hset⟩
  · rw [hsame]
  · rw [hset, Dict.get_set, if_neg]
    rw [username_own h hpayload htext]
    exact hother

theorem cache_snapshots {r : Request F} (h : NamesOwn r) {table : Table F} (htable : Snapshots policy table) :
    Snapshots policy (cacheAuthenticatedUser db policy r table) := by
  rcases cache_cases r table with hsame | ⟨payload, name, row, hpayload, htext, hrow, hset⟩
  · rw [hsame]
    exact htable
  · obtain rfl := username_own h hpayload htext
    rw [hset]
    intro username row' hget
    rw [Dict.get_set] at hget
    split at hget
    next heq =>
      cases hget
      subst heq
      exact ⟨r.requester.groups, hrow⟩
    next => exact htable username row' hget

/-- **Every user's row is the user's own.** While no payload names another user, requests leave the rows
of the users who made none of them, and the snapshots stay those of the policy. -/
theorem own_rows : ∀ {requests : List (Request F)}, (∀ r ∈ requests, NamesOwn r) → ∀ table : Table F,
    (∀ username, (∀ r ∈ requests, r.requester.login ≠ username) →
      (run db policy requests table).get username = table.get username) ∧
    (Snapshots policy table → Snapshots policy (run db policy requests table))
  | [], _, _ => ⟨fun _ _ => rfl, fun h => h⟩
  | r :: requests, h, table => by
    have hr : NamesOwn r := h r List.mem_cons_self
    obtain ⟨hkeeps, hsnapshots⟩ := own_rows (fun r' hr' => h r' (List.mem_cons_of_mem _ hr'))
      (cacheAuthenticatedUser db policy r table)
    constructor
    · intro username hother
      have hrest := hkeeps username fun r' hr' => hother r' (List.mem_cons_of_mem _ hr')
      exact hrest.trans (cache_keeps hr (hother r List.mem_cons_self) table)
    · intro htable
      exact hsnapshots (cache_snapshots hr htable)

/-! ## A payload that names another user -/

/-- Text columns take strings only. -/
def plainText : Database ℚ where
  text
    | .str s => some s
    | _ => none
  text_str _ _ h := (Option.some.inj h).symm

/-- Everyone has the role of their name. -/
def namePolicy : FilePolicy where
  rolesActions
    | .anonymous => ([], [])
    | .authenticated login _ => ([login], [])
  allowedAnonymousAction _ := false
  definitionActions := []

def malloryUser : TokenUser ℚ := ⟨"mallory".toList, .none, []⟩

def ownRequest : Request ℚ := ⟨malloryUser, .dict [("fullname".toList, .str "Mallory".toList)], true⟩

def othersRequest : Request ℚ := ⟨malloryUser, .dict [("username".toList, .str "root".toList)], true⟩

theorem own_rows_mallory :
    (∀ username, (∀ r ∈ [ownRequest], r.requester.login ≠ username) →
      (run plainText namePolicy [ownRequest] ∅).get username = (∅ : Table ℚ).get username) ∧
    (Snapshots namePolicy (∅ : Table ℚ) → Snapshots namePolicy (run plainText namePolicy [ownRequest] ∅)) := by
  have hown : ∀ r ∈ [ownRequest], NamesOwn r := by
    intro r hr
    obtain rfl := List.mem_singleton.1 hr
    rintro payload hpayload
    cases hpayload
    exact .inl rfl
  exact own_rows hown ∅

/-- A user without a row of root's gives root one, with mallory's roles. -/
theorem other_row_overwritten :
    (∀ r ∈ [othersRequest], r.requester.login = "mallory".toList) ∧ (∅ : Table ℚ).get "root".toList = none ∧
    ∃ row, (run plainText namePolicy [othersRequest] ∅).get "root".toList = some row ∧
      row.policyRoles = ["mallory".toList] ∧
      ∀ groups, (row.policyRoles, row.policyActions) ≠ policySnapshot namePolicy
        (.authenticated "root".toList groups) := by
  have hroot : ∀ groups, (policySnapshot namePolicy (.authenticated "root".toList groups)).1 =
      ["root".toList] := fun _ => rfl
  have hmallory : (policySnapshot namePolicy malloryUser.user).1 = ["mallory".toList] := rfl
  refine ⟨by decide, rfl, _, rfl, hmallory, ?_⟩
  intro groups h
  have hroles := (congrArg Prod.fst h).trans (hroot groups)
  exact absurd (hmallory.symm.trans hroles) (by decide)

end SlurmWeb.Users
