import SlurmWeb.Permission.RoleMigration
import SlurmWeb.Permission.Roles

/-!
# The store of custom roles (slurmweb/persistence/access_control_store.py)

Roles, and who holds them, are three tables: `roles`, `users` and `user_roles`, whose foreign keys
delete the rows of a role with the role (alembic 0005). Every call of the store is one
transaction, and `set_user_roles` reads its answer in a second one. A call that raises is rolled
back, except for the sequences the ids are drawn from, unless only its answer is lost.

| here | there |
| --- | --- |
| `Tables` | the tables (alembic/versions/20260420_0001, 20260424_0005) |
| `roleNameExists` | `_role_name_exists` (:113) |
| `createRole`, `updateRole`, `deleteRole` | :159, :214, :274 |
| `heldRoles`, `Tables.store` | the query of `user_permissions` (:291) |
| `ensureUser`, `roleIdsExist`, `setUserRoles` | :417, :430, :505 |
| `getUserRoles` | `_user_roles_detail` (:442), `get_user_roles` (:478) |
| `seedDefaultRoles`, `normalizeLegacyRoleActions` | :536, :74 |
| `upsertLdapUser` | `upsert_ldap_user` (users_store.py:51) |

`Fate` says what becomes of the statements of a call; `collate` is the database's order of
texts. The times of the rows are left out, and so is the groups column.

`Access` says what the store is for: which roles there are and who holds them.

* `run_wf` — names stay unique and assignments stay between users and roles that exist.
* `run_access` — any sequence of calls acts on the tables as it does on `Access`.
* `decision_iff` — what a user is allowed after any sequence of calls is what the file grants and
  what the roles held in `Access` grant.
* `deleted_for_good` — no later call brings a deleted role, or a right it gave, back.
* `run_granted_of_apart` — calls about other users and other roles leave a user's rights alone.
-/

namespace SlurmWeb.RoleStore

open Strings RuleLanguage

/-! ## The tables -/

/-- A row of `users`, under its `username`. -/
structure UserRecord where
  id : Int
  fullname : Option Str
  policyRoles : List Str
  policyActions : List Str

structure Tables where
  roles : Dict Int Role
  users : Dict Str UserRecord
  userRoles : Finset (Int × Int)
  /-- What the sequences give out next. -/
  nextRole : Int
  nextUser : Int

def Tables.empty : Tables := ⟨∅, ∅, ∅, 1, 1⟩

inductive StoreError
  | roleExists (name : Str)
  | rolesNotFound
  | invalidRule (err : RuleError)
  | database
deriving DecidableEq

/-- The text of a `ValueError` of the store. -/
def StoreError.message : StoreError → Option Str
  | roleExists name => some ("Role ".toList ++ name ++ " already exists".toList)
  | rolesNotFound => some "One or more roles were not found".toList
  | _ => none

/-- The permission map, as the loader leaves it. -/
abbrev NormalMap := {M : LegacyMap // M.Normal}

/-- The dictionary of a role. -/
structure RoleDetails where
  id : Int
  name : Str
  description : Option Str
  actions : List Str
  permissions : List Str

/-- The dictionary of a user. -/
structure UserDetails where
  username : Str
  fullname : Option Str
  policyRoles : List Str
  policyActions : List Str
  customRoles : List RoleDetails
  customActions : List Str

variable (M : NormalMap) (collate : Str → Str → Bool)

def roleDetails (id : Int) (role : Role) : RoleDetails where
  id := id
  name := role.name
  description := role.description
  actions := role.actions
  permissions := RoleMigration.derivePermissions M.val.rules role.actions role.permissions.val

/-- `ORDER BY name ASC` -/
def orderByName (rows : List (Int × Role)) : List (Int × Role) := rows.mergeSort fun a b => collate a.2.name b.2.name

/-! ## Statements -/

/-- `_role_name_exists` (:113) -/
def roleNameExists (t : Tables) (name : Str) (excludeRoleId : Option Int) : Bool :=
  t.roles.entries.any fun row => decide (row.2.name = name) && !excludeRoleId.any fun id => decide (row.1 = id)

/-- `INSERT INTO roles .. RETURNING id` -/
def insertRole (t : Tables) (role : Role) : Tables × Int :=
  ({ t with roles := t.roles.set t.nextRole role, nextRole := t.nextRole + 1 }, t.nextRole)

/-- `INSERT INTO users .. ON CONFLICT (username) DO UPDATE`; the id is drawn before the conflict. -/
def upsertUser (t : Tables) (username : Str) (inserted : Int → UserRecord) (updated : UserRecord → UserRecord) :
    Tables × UserRecord :=
  match t.users.get username with
  | some user => ({ t with users := t.users.set username (updated user), nextUser := t.nextUser + 1 }, updated user)
  | none =>
    ({ t with users := t.users.set username (inserted t.nextUser), nextUser := t.nextUser + 1 }, inserted t.nextUser)

/-- `_ensure_user` (:417) -/
def ensureUser (t : Tables) (username : Str) : Tables × UserRecord :=
  upsertUser t username (fun id => ⟨id, none, [], []⟩) id

/-- `_role_ids_exist` (:430) -/
def roleIdsExist (t : Tables) (roleIds : List Int) : Bool :=
  if roleIds = [] then true else decide ((t.roles.keys.filter fun id => id ∈ roleIds).length = roleIds.dedup.length)

/-- The rows of `roles` a user holds, by the joins over `users` and `user_roles`. -/
def heldRoles (t : Tables) (username : Str) : List (Int × Role) :=
  match t.users.get username with
  | some user => orderByName collate (t.roles.entries.filter fun row => decide ((user.id, row.1) ∈ t.userRoles))
  | none => []

/-- What a failed transaction leaves: the sequences keep what was drawn. -/
def rollback (t t' : Tables) : Tables := { t with nextRole := t'.nextRole, nextUser := t'.nextUser }

/-- What becomes of the statements of a call. -/
inductive Fate
  | taken
  | refused
  /-- The database takes them, but the answer to the commit is lost, or the read behind it fails. -/
  | unanswered
deriving DecidableEq

def Fate.error : Fate → Option StoreError
  | taken => none
  | refused | unanswered => some .database

/-- `conn.commit()`, and the return of the call's value. -/
def commit {α : Type} (fate : Fate) (t t' : Tables) (value : α) : Tables × Except StoreError α :=
  match fate with
  | .taken => (t', .ok value)
  | .refused => (rollback t t', .error .database)
  | .unanswered => (t', .error .database)

/-! ## The calls -/

/-- `create_role` (:159) -/
def createRole (fate : Fate) (role : Role) (t : Tables) : Tables × Except StoreError RoleDetails :=
  if roleNameExists t role.name none then (t, .error (.roleExists role.name))
  else
    let (t', id) := insertRole t role
    commit fate t t' (roleDetails M id role)

/-- `update_role` (:214); `none` where the `UPDATE` meets no row. -/
def updateRole (fate : Fate) (id : Int) (role : Role) (t : Tables) : Tables × Except StoreError (Option RoleDetails) :=
  if roleNameExists t role.name (some id) then (t, .error (.roleExists role.name))
  else
    match t.roles.get id with
    | some _ => commit fate t { t with roles := t.roles.set id role } (some (roleDetails M id role))
    | none => commit fate t t none

/-- `delete_role` (:274), with `ON DELETE CASCADE`. -/
def deleteRole (fate : Fate) (id : Int) (t : Tables) : Tables × Except StoreError Bool :=
  commit fate t { t with roles := t.roles.erase id, userRoles := t.userRoles.filter fun row => row.2 ≠ id }
    (t.roles.get id).isSome

/-- `get_user_roles` (:478) over `_user_roles_detail` (:442) -/
def getUserRoles (t : Tables) (username : Str) : Option UserDetails :=
  (t.users.get username).map fun user =>
    let customRoles := (heldRoles collate t username).map fun row => roleDetails M row.1 row.2
    ⟨username, user.fullname, user.policyRoles, user.policyActions, customRoles,
      sortedSet (customRoles.flatMap RoleDetails.actions)⟩

/-- `set_user_roles` (:505); `get_user_roles` runs behind the commit. -/
def setUserRoles (fate : Fate) (username : Str) (roleIds : List Int) (t : Tables) :
    Tables × Except StoreError (Option UserDetails) :=
  let (t', user) := ensureUser t username
  if !roleIdsExist t' roleIds then (rollback t t', .error .rolesNotFound)
  else
    let t'' := { t' with
      userRoles := (t'.userRoles.filter fun row => row.1 ≠ user.id) ∪ roleIds.toFinset.image fun id => (user.id, id) }
    commit fate t t'' (getUserRoles M collate t'' username)

def insertRoles (t : Tables) (roles : List Role) : Tables × List Int :=
  roles.foldl (fun acc role => ((insertRole acc.1 role).1, acc.2 ++ [(insertRole acc.1 role).2])) (t, [])

/-- `seed_default_roles` (:536) -/
def seedDefaultRoles (fate : Fate) (t : Tables) : Tables × Except StoreError (List RoleDetails) :=
  if t.roles.entries ≠ [] then (t, .ok [])
  else
    match SlurmWeb.seedDefaultRoles M.val with
    | .error e => (t, .error (.invalidRule e))
    | .ok roles =>
      let (t', ids) := insertRoles t roles
      commit fate t t' ((ids.zip roles).map fun row => roleDetails M row.1 row.2)

/-- One row of `normalize_legacy_role_actions` (:83). -/
def normalizeRole (role : Role) : Role where
  name := role.name
  description := role.description
  actions := (RoleMigration.normalizedRoleActionsPermissions M.val.rules role.actions role.permissions.val).1
  permissions := ⟨(RoleMigration.normalizedRoleActionsPermissions M.val.rules role.actions role.permissions.val).2, by
    intro s hs
    rcases List.mem_append.1 (mem_sortedSet.1 hs) with hs | hs
    · exact role.permissions.property s hs
    · exact M.val.mappedRules_valid _ s hs⟩

/-- `normalize_legacy_role_actions` (:74): how many rows it rewrote. -/
def normalizeLegacyRoleActions (fate : Fate) (t : Tables) : Tables × Except StoreError Nat :=
  commit fate t { t with roles := t.roles.mapValues (normalizeRole M) }
    (t.roles.values.countP fun role => decide (role.actions ≠ (normalizeRole M role).actions ∨
      role.permissions.val ≠ (normalizeRole M role).permissions.val))

/-- `upsert_ldap_user` (users_store.py:51), called with a name and lists. -/
def upsertLdapUser (fate : Fate) (username : Str) (fullname : Option Str) (policyRoles policyActions : List Str)
    (t : Tables) : Tables × Except StoreError Unit :=
  if username = [] then (t, .ok ())
  else
    commit fate t (upsertUser t username (fun id => ⟨id, fullname, policyRoles, policyActions⟩) fun user =>
      ⟨user.id, fullname, policyRoles, policyActions⟩).1 ()

/-- The calls that write. -/
inductive Call
  | createRole (role : Role) (fate : Fate)
  | updateRole (id : Int) (role : Role) (fate : Fate)
  | deleteRole (id : Int) (fate : Fate)
  | setUserRoles (username : Str) (roleIds : List Int) (fate : Fate)
  | seedDefaultRoles (fate : Fate)
  | normalizeLegacyRoleActions (fate : Fate)
  | upsertLdapUser (username : Str) (fullname : Option Str) (policyRoles policyActions : List Str) (fate : Fate)

def Call.fate : Call → Fate
  | createRole _ fate | updateRole _ _ fate | deleteRole _ fate | setUserRoles _ _ fate | seedDefaultRoles fate
  | normalizeLegacyRoleActions fate | upsertLdapUser _ _ _ _ fate => fate

/-- The tables after a call, and the error it raises. -/
def outcome {α : Type} : Tables × Except StoreError α → Tables × Option StoreError
  | (t, .ok _) => (t, none)
  | (t, .error e) => (t, some e)

def Call.exec (t : Tables) : Call → Tables × Option StoreError
  | .createRole role fate => outcome (RoleStore.createRole M fate role t)
  | .updateRole id role fate => outcome (RoleStore.updateRole M fate id role t)
  | .deleteRole id fate => outcome (RoleStore.deleteRole fate id t)
  | .setUserRoles username roleIds fate => outcome (RoleStore.setUserRoles M collate fate username roleIds t)
  | .seedDefaultRoles fate => outcome (RoleStore.seedDefaultRoles M fate t)
  | .normalizeLegacyRoleActions fate => outcome (RoleStore.normalizeLegacyRoleActions M fate t)
  | .upsertLdapUser username fullname policyRoles policyActions fate =>
    outcome (RoleStore.upsertLdapUser fate username fullname policyRoles policyActions t)

def run (calls : List Call) (t : Tables) : Tables := calls.foldl (fun t c => (c.exec M collate t).1) t

/-! ## What the store is for -/

/-- Which roles there are, under their ids, who holds which, and the next id. -/
@[ext] structure Access where
  roles : Int → Option Role
  held : Str → Set Int
  next : Int

def Tables.access (t : Tables) : Access where
  roles := t.roles.get
  held username := {id | ∃ user, t.users.get username = some user ∧ (user.id, id) ∈ t.userRoles}
  next := t.nextRole

namespace Access

/-- Another role than the excluded one has the name. -/
def Taken (a : Access) (name : Str) (exclude : Option Int) : Prop :=
  ∃ id role, a.roles id = some role ∧ role.name = name ∧ exclude ≠ some id

def insert (a : Access) (role : Role) : Access where
  roles := Function.update a.roles a.next (some role)
  held := a.held
  next := a.next + 1

open Classical in
/-- The error a call meets with. -/
noncomputable def refusal (a : Access) : Call → Option StoreError
  | .createRole role fate =>
    if a.Taken role.name none then some (.roleExists role.name) else fate.error
  | .updateRole id role fate =>
    if a.Taken role.name (some id) then some (.roleExists role.name) else fate.error
  | .setUserRoles _ roleIds fate =>
    if ∀ id ∈ roleIds, (a.roles id).isSome then fate.error else some .rolesNotFound
  | .seedDefaultRoles fate =>
    if ∃ id, (a.roles id).isSome then none
    else match SlurmWeb.seedDefaultRoles M.val with
      | .error e => some (.invalidRule e)
      | .ok _ => fate.error
  | .upsertLdapUser username _ _ _ fate => if username = [] then none else fate.error
  | .deleteRole _ fate | .normalizeLegacyRoleActions fate => fate.error

open Classical in
/-- What a call does whose statements the database takes. -/
noncomputable def effect (a : Access) : Call → Access
  | .createRole role _ => a.insert role
  | .updateRole id role _ =>
    if (a.roles id).isSome then { a with roles := Function.update a.roles id (some role) } else a
  | .deleteRole id _ =>
    { a with roles := Function.update a.roles id none, held := fun username => a.held username \ {id} }
  | .setUserRoles username roleIds _ => { a with held := Function.update a.held username {id | id ∈ roleIds} }
  | .seedDefaultRoles _ =>
    if ∃ id, (a.roles id).isSome then a
    else match SlurmWeb.seedDefaultRoles M.val with
      | .error _ => a
      | .ok roles => roles.foldl insert a
  | .normalizeLegacyRoleActions _ => { a with roles := fun id => (a.roles id).map (normalizeRole M) }
  | .upsertLdapUser _ _ _ _ _ => a

open Classical in
/-- How many ids a call has drawn when it is rolled back. -/
noncomputable def drawn (a : Access) : Call → Nat
  | .createRole role _ => if a.Taken role.name none then 0 else 1
  | .seedDefaultRoles _ =>
    match SlurmWeb.seedDefaultRoles M.val with
    | .error _ => 0
    | .ok roles => roles.length
  | _ => 0

/-- The call raises nothing, or only its answer is lost. -/
def Takes (a : Access) (c : Call) : Prop :=
  a.refusal M c = none ∨ a.refusal M c = some .database ∧ c.fate = .unanswered

open Classical in
/-- A call: its effect, or nothing but the ids it has drawn. -/
noncomputable def apply (a : Access) (c : Call) : Access :=
  if a.Takes M c then a.effect M c else { a with next := a.next + a.drawn M c }

theorem apply_cases (a : Access) (c : Call) : a.Takes M c ∧ a.apply M c = a.effect M c ∨
    a.apply M c = { a with next := a.next + a.drawn M c } := by
  by_cases h : a.Takes M c
  · exact .inl ⟨h, if_pos h⟩
  · exact .inr (if_neg h)

/-- A call that raises, and not because its answer is lost, changes no role and no assignment. -/
theorem apply_raises {a : Access} {c : Call} (h : a.refusal M c ≠ none) (hfate : c.fate ≠ .unanswered) :
    (a.apply M c).roles = a.roles ∧ (a.apply M c).held = a.held := by
  have hnot : ¬ a.Takes M c := by
    rintro (hnone | ⟨-, hlost⟩)
    · exact h hnone
    · exact hfate hlost
  rw [apply, if_neg hnot]
  exact ⟨rfl, rfl⟩

end Access

/-! ## Invariants -/

/-- What the constraints of the database say. -/
structure Tables.Wf (t : Tables) : Prop where
  names : ∀ i j r r', t.roles.get i = some r → t.roles.get j = some r' → r.name = r'.name → i = j
  roleIds : ∀ i r, t.roles.get i = some r → i < t.nextRole
  users : ∀ u v x y, t.users.get u = some x → t.users.get v = some y → x.id = y.id → u = v
  userIds : ∀ u x, t.users.get u = some x → x.id < t.nextUser
  assigned : ∀ u r, (u, r) ∈ t.userRoles →
    (∃ name x, t.users.get name = some x ∧ x.id = u) ∧ ∃ role, t.roles.get r = some role

theorem empty_wf : Tables.empty.Wf := by
  refine ⟨?_, ?_, ?_, ?_, ?_⟩
  · intro i j r r' h
    simp [Tables.empty] at h
  · intro i r h
    simp [Tables.empty] at h
  · intro u v x y h
    simp [Tables.empty] at h
  · intro u x h
    simp [Tables.empty] at h
  · intro u r h
    simp [Tables.empty] at h

variable {M collate} {t : Tables}

theorem rollback_wf (h : t.Wf) {t' : Tables} (hr : t.nextRole ≤ t'.nextRole) (hu : t.nextUser ≤ t'.nextUser) :
    (rollback t t').Wf := by
  refine ⟨h.names, ?_, h.users, ?_, h.assigned⟩
  · intro i r hi
    have := h.roleIds i r hi
    change i < t'.nextRole
    omega
  · intro u x hx
    have := h.userIds u x hx
    change x.id < t'.nextUser
    omega

theorem roleNameExists_iff {name : Str} {exclude : Option Int} :
    roleNameExists t name exclude = true ↔ t.access.Taken name exclude := by
  simp only [roleNameExists, List.any_eq_true, Bool.and_eq_true, decide_eq_true_eq, Bool.not_eq_true', Prod.exists]
  constructor
  · rintro ⟨id, role, hmem, hname, hex⟩
    refine ⟨id, role, Dict.mem_entries_iff.1 hmem, hname, ?_⟩
    rintro rfl
    simp at hex
  · rintro ⟨id, role, hget, hname, hex⟩
    refine ⟨id, role, Dict.mem_entries_iff.2 hget, hname, ?_⟩
    cases exclude with
    | none => rfl
    | some e => simpa [eq_comm] using hex

/-! ### A role is inserted -/

theorem insertRole_wf (h : t.Wf) {role : Role} (hfree : ¬ t.access.Taken role.name none) :
    (insertRole t role).1.Wf := by
  have hnew : t.roles.get t.nextRole = none := by
    cases hg : t.roles.get t.nextRole with
    | none => rfl
    | some r =>
      have := h.roleIds _ r hg
      omega
  have hother : ∀ i r, t.roles.get i = some r → r.name ≠ role.name := by
    intro i r hi hname
    exact hfree ⟨i, r, hi, hname, by simp⟩
  refine ⟨?_, ?_, h.users, h.userIds, ?_⟩
  · intro i j r r' hi hj hname
    simp only [insertRole, Dict.get_set] at hi hj
    by_cases hin : t.nextRole = i <;> by_cases hjn : t.nextRole = j
    · omega
    · simp only [hin, if_true, Option.some.injEq] at hi
      simp only [hjn, if_false] at hj
      exact absurd (hi ▸ hname).symm (hother j r' hj)
    · simp only [hjn, if_true, Option.some.injEq] at hj
      simp only [hin, if_false] at hi
      exact absurd (hj ▸ hname) (hother i r hi)
    · simp only [hin, hjn, if_false] at hi hj
      exact h.names i j r r' hi hj hname
  · intro i r hi
    simp only [insertRole, Dict.get_set] at hi ⊢
    by_cases hin : t.nextRole = i
    · omega
    · simp only [hin, if_false] at hi
      have := h.roleIds i r hi
      omega
  · intro u r hur
    obtain ⟨huser, role', hrole⟩ := h.assigned u r hur
    refine ⟨huser, ?_⟩
    by_cases hr : t.nextRole = r
    · rw [hr, hrole] at hnew
      cases hnew
    · exact ⟨role', by simp [insertRole, hr, hrole]⟩

theorem insertRole_access (role : Role) : (insertRole t role).1.access = t.access.insert role := by
  ext id : 2
  · simp [Tables.access, insertRole, Access.insert, Function.update_apply, eq_comm]
  · rfl
  · rfl

/-! ### A role is rewritten or deleted -/

theorem setRole_wf (h : t.Wf) {id : Int} {role old : Role} (hold : t.roles.get id = some old)
    (hfree : ¬ t.access.Taken role.name (some id)) : Tables.Wf { t with roles := t.roles.set id role } := by
  have hother : ∀ i r, t.roles.get i = some r → i ≠ id → r.name ≠ role.name := by
    intro i r hi hne hname
    exact hfree ⟨i, r, hi, hname, by simpa [eq_comm] using hne⟩
  refine ⟨?_, ?_, h.users, h.userIds, ?_⟩
  · intro i j r r' hi hj hname
    simp only [Dict.get_set] at hi hj
    by_cases hin : id = i <;> by_cases hjn : id = j
    · omega
    · simp only [hin, if_true, Option.some.injEq] at hi
      simp only [hjn, if_false] at hj
      exact absurd (hi ▸ hname).symm (hother j r' hj (Ne.symm hjn))
    · simp only [hjn, if_true, Option.some.injEq] at hj
      simp only [hin, if_false] at hi
      exact absurd (hj ▸ hname) (hother i r hi (Ne.symm hin))
    · simp only [hin, hjn, if_false] at hi hj
      exact h.names i j r r' hi hj hname
  · intro i r hi
    simp only [Dict.get_set] at hi
    by_cases hin : id = i
    · exact h.roleIds i old (hin ▸ hold)
    · simp only [hin, if_false] at hi
      exact h.roleIds i r hi
  · intro u r hur
    obtain ⟨huser, role', hrole⟩ := h.assigned u r hur
    refine ⟨huser, ?_⟩
    by_cases hr : id = r
    · exact ⟨role, by simp [hr]⟩
    · exact ⟨role', by simp [hr, hrole]⟩

theorem eraseRole_wf (h : t.Wf) (id : Int) :
    Tables.Wf { t with roles := t.roles.erase id, userRoles := t.userRoles.filter fun row => row.2 ≠ id } := by
  have hsub : ∀ i r, (t.roles.erase id).get i = some r → t.roles.get i = some r := by
    intro i r hi
    rw [Dict.get_erase] at hi
    by_cases hin : id = i
    · simp [hin] at hi
    · simpa [hin] using hi
  refine ⟨?_, ?_, h.users, h.userIds, ?_⟩
  · intro i j r r' hi hj
    exact h.names i j r r' (hsub i r hi) (hsub j r' hj)
  · intro i r hi
    exact h.roleIds i r (hsub i r hi)
  · intro u r hur
    simp only [Finset.mem_filter] at hur
    obtain ⟨huser, role, hrole⟩ := h.assigned u r hur.1
    exact ⟨huser, role, by simp [Ne.symm hur.2, hrole]⟩

theorem mapRoles_wf (h : t.Wf) {f : Role → Role} (hf : ∀ role, (f role).name = role.name) :
    Tables.Wf { t with roles := t.roles.mapValues f } := by
  have hsub : ∀ i r, (t.roles.mapValues f).get i = some r → ∃ r₀, t.roles.get i = some r₀ ∧ f r₀ = r := by
    intro i r hi
    simpa using hi
  refine ⟨?_, ?_, h.users, h.userIds, ?_⟩
  · intro i j r r' hi hj hname
    obtain ⟨r₀, hi₀, rfl⟩ := hsub i r hi
    obtain ⟨r₁, hj₀, rfl⟩ := hsub j r' hj
    rw [hf, hf] at hname
    exact h.names i j r₀ r₁ hi₀ hj₀ hname
  · intro i r hi
    obtain ⟨r₀, hi, -⟩ := hsub i r hi
    exact h.roleIds i r₀ hi
  · intro u r hur
    obtain ⟨huser, role, hrole⟩ := h.assigned u r hur
    exact ⟨huser, f role, by simp [hrole]⟩

/-! ### A user is written -/

section Users

variable {username : Str} {inserted : Int → UserRecord} {updated : UserRecord → UserRecord}

/-- The row the statement returns is the one it leaves, with the id of the old one if there was. -/
theorem upsertUser_get (hi : ∀ id, (inserted id).id = id) (hu : ∀ x, (updated x).id = x.id) :
    (upsertUser t username inserted updated).1.users.get username = some (upsertUser t username inserted updated).2 ∧
      (upsertUser t username inserted updated).2.id = ((t.users.get username).map UserRecord.id).getD t.nextUser := by
  unfold upsertUser
  cases hg : t.users.get username with
  | none => simp [hi]
  | some x => simp [hu]

theorem upsertUser_other {v : Str} (hv : username ≠ v) :
    (upsertUser t username inserted updated).1.users.get v = t.users.get v := by
  unfold upsertUser
  cases t.users.get username <;> simp [hv]

@[simp] theorem upsertUser_roles : (upsertUser t username inserted updated).1.roles = t.roles := by
  unfold upsertUser
  split <;> rfl

@[simp] theorem upsertUser_userRoles : (upsertUser t username inserted updated).1.userRoles = t.userRoles := by
  unfold upsertUser
  split <;> rfl

@[simp] theorem upsertUser_nextRole : (upsertUser t username inserted updated).1.nextRole = t.nextRole := by
  unfold upsertUser
  split <;> rfl

@[simp] theorem upsertUser_nextUser : (upsertUser t username inserted updated).1.nextUser = t.nextUser + 1 := by
  unfold upsertUser
  split <;> rfl

/-- A user keeps its id; a new one has a new id. -/
theorem upsertUser_ids (hi : ∀ id, (inserted id).id = id) (hu : ∀ x, (updated x).id = x.id) {v : Str}
    {x : UserRecord} (hx : (upsertUser t username inserted updated).1.users.get v = some x) :
    (∃ y, t.users.get v = some y ∧ y.id = x.id) ∨ v = username ∧ t.users.get username = none ∧ x.id = t.nextUser := by
  by_cases hv : username = v
  · subst hv
    obtain ⟨hget, hid⟩ := @upsertUser_get t username inserted updated hi hu
    rw [hget, Option.some.injEq] at hx
    rw [hx] at hid
    cases hg : t.users.get username with
    | none => exact .inr ⟨rfl, rfl, by simpa [hg] using hid⟩
    | some y => exact .inl ⟨y, rfl, by simpa [hg] using hid.symm⟩
  · rw [upsertUser_other hv] at hx
    exact .inl ⟨x, hx, rfl⟩

theorem upsertUser_wf (h : t.Wf) (hi : ∀ id, (inserted id).id = id) (hu : ∀ x, (updated x).id = x.id) :
    (upsertUser t username inserted updated).1.Wf := by
  refine ⟨?_, ?_, ?_, ?_, ?_⟩
  · simpa using h.names
  · simpa using h.roleIds
  · intro u v x y hx hy hid
    rcases upsertUser_ids hi hu hx with ⟨x₀, hx₀, hxid⟩ | ⟨rfl, hnone, hxid⟩
    · rcases upsertUser_ids hi hu hy with ⟨y₀, hy₀, hyid⟩ | ⟨rfl, -, hyid⟩
      · exact h.users u v x₀ y₀ hx₀ hy₀ (by omega)
      · have := h.userIds u x₀ hx₀
        omega
    · rcases upsertUser_ids hi hu hy with ⟨y₀, hy₀, hyid⟩ | ⟨rfl, -, -⟩
      · have := h.userIds v y₀ hy₀
        omega
      · rfl
  · intro u x hx
    rw [upsertUser_nextUser]
    rcases upsertUser_ids hi hu hx with ⟨x₀, hx₀, hxid⟩ | ⟨-, -, hxid⟩
    · have := h.userIds u x₀ hx₀
      omega
    · omega
  · intro u r hur
    rw [upsertUser_userRoles] at hur
    rw [upsertUser_roles]
    obtain ⟨⟨name, x, hx, hxid⟩, hrole⟩ := h.assigned u r hur
    refine ⟨?_, hrole⟩
    by_cases hv : username = name
    · subst hv
      obtain ⟨hget, hid⟩ := @upsertUser_get t username inserted updated hi hu
      refine ⟨username, _, hget, ?_⟩
      rw [hid, hx]
      exact hxid
    · exact ⟨name, x, by rw [upsertUser_other hv, hx], hxid⟩

/-- A new user holds nothing, so nobody holds more or less. -/
theorem upsertUser_access (h : t.Wf) (hi : ∀ id, (inserted id).id = id) (hu : ∀ x, (updated x).id = x.id) :
    (upsertUser t username inserted updated).1.access = t.access := by
  have hheld : (upsertUser t username inserted updated).1.access.held = t.access.held := by
    funext v
    ext id
    simp only [Tables.access, upsertUser_userRoles, Set.mem_ofPred_eq]
    constructor
    · rintro ⟨x, hx, hmem⟩
      rcases upsertUser_ids hi hu hx with ⟨y, hy, hid⟩ | ⟨rfl, -, hid⟩
      · exact ⟨y, hy, hid ▸ hmem⟩
      · -- no row of `user_roles` has an id that was not given out
        obtain ⟨⟨name, z, hz, hzid⟩, -⟩ := h.assigned _ _ hmem
        have := h.userIds name z hz
        omega
    · rintro ⟨y, hy, hmem⟩
      by_cases hv : username = v
      · subst hv
        obtain ⟨hget, hid⟩ := @upsertUser_get t username inserted updated hi hu
        refine ⟨_, hget, ?_⟩
        rw [hid, hy]
        exact hmem
      · exact ⟨y, by rw [upsertUser_other hv, hy], hmem⟩
  ext : 1
  · simp [Tables.access]
  · exact hheld
  · simp [Tables.access]

end Users

/-! ### A user's roles are set -/

theorem roleIdsExist_iff {roleIds : List Int} :
    roleIdsExist t roleIds = true ↔ ∀ id ∈ roleIds, (t.roles.get id).isSome := by
  have hkeys : ∀ id, id ∈ t.roles.keys ↔ (t.roles.get id).isSome = true := by
    intro id
    rw [Dict.mem_keys_iff, Option.isSome_iff_exists]
  have hnodup : (t.roles.keys.filter fun id => id ∈ roleIds).Nodup := List.Nodup.filter _ t.roles.nodup
  have hsub : (t.roles.keys.filter fun id => id ∈ roleIds) ⊆ roleIds.dedup := by
    intro id hid
    simpa using (List.mem_filter.1 hid).2
  unfold roleIdsExist
  by_cases hnil : roleIds = []
  · simp [hnil]
  rw [if_neg hnil, decide_eq_true_eq]
  constructor
  · intro hlen id hid
    have hperm := (List.subperm_of_subset hnodup hsub).perm_of_length_le (by omega)
    have hmem := hperm.mem_iff.2 (List.mem_dedup.2 hid)
    exact (hkeys id).1 (List.mem_filter.1 hmem).1
  · intro h
    refine List.Perm.length_eq ((List.perm_ext_iff_of_nodup hnodup (List.nodup_dedup _)).2 fun id => ?_)
    refine ⟨fun hid => hsub hid, fun hid => ?_⟩
    have hid := List.mem_dedup.1 hid
    exact List.mem_filter.2 ⟨(hkeys id).2 (h id hid), by simpa using hid⟩

/-- The rows of `user_roles` after `set_user_roles`. -/
def assigned (userRoles : Finset (Int × Int)) (user : Int) (roleIds : List Int) : Finset (Int × Int) :=
  (userRoles.filter fun row => row.1 ≠ user) ∪ roleIds.toFinset.image fun id => (user, id)

theorem mem_assigned {userRoles : Finset (Int × Int)} {user u r : Int} {roleIds : List Int} :
    (u, r) ∈ assigned userRoles user roleIds ↔ if u = user then r ∈ roleIds else (u, r) ∈ userRoles := by
  by_cases h : u = user
  · simp [assigned, h]
  · simp [assigned, h, Ne.symm h]

theorem assign_wf (h : t.Wf) {username : Str} {user : UserRecord} (hu : t.users.get username = some user)
    {roleIds : List Int} (hr : ∀ id ∈ roleIds, (t.roles.get id).isSome) :
    Tables.Wf { t with userRoles := assigned t.userRoles user.id roleIds } := by
  refine ⟨h.names, h.roleIds, h.users, h.userIds, ?_⟩
  intro u r hur
  rw [mem_assigned] at hur
  by_cases huu : u = user.id
  · simp only [huu, if_true] at hur
    exact ⟨⟨username, user, hu, huu.symm⟩, Option.isSome_iff_exists.1 (hr r hur)⟩
  · simp only [huu, if_false] at hur
    exact h.assigned u r hur

theorem assign_access (h : t.Wf) {username : Str} {user : UserRecord} (hu : t.users.get username = some user)
    (roleIds : List Int) :
    Tables.access { t with userRoles := assigned t.userRoles user.id roleIds } =
      { t.access with held := Function.update t.access.held username {id | id ∈ roleIds} } := by
  ext : 1
  · rfl
  · funext v
    ext id
    by_cases hv : v = username
    · subst hv
      simp [Tables.access, hu, mem_assigned]
    · simp only [Tables.access, mem_assigned, Set.mem_ofPred_eq, ne_eq, hv, not_false_eq_true, Function.update_of_ne]
      refine exists_congr fun x => and_congr_right fun hx => ?_
      have hne : x.id ≠ user.id := fun hid => hv (h.users v username x user hx hu hid)
      simp [hne]
  · rfl

/-! ### The seeded roles -/

theorem insertRoles_fst (roles : List Role) : ∀ acc : Tables × List Int,
    (roles.foldl (fun acc role => ((insertRole acc.1 role).1, acc.2 ++ [(insertRole acc.1 role).2])) acc).1 =
      roles.foldl (fun t role => (insertRole t role).1) acc.1 := by
  induction roles with
  | nil => intro acc; rfl
  | cons role roles ih => intro acc; simp only [List.foldl_cons, ih]

theorem insertRoles_wf : ∀ {roles : List Role} {t : Tables}, t.Wf → (roles.map Role.name).Nodup →
    (∀ role ∈ roles, ¬ t.access.Taken role.name none) → (roles.foldl (fun t role => (insertRole t role).1) t).Wf
  | [], _, h, _, _ => h
  | role :: roles, t, h, hnodup, hfree => by
    simp only [List.map_cons, List.nodup_cons, List.mem_map, not_exists, not_and] at hnodup
    rw [List.foldl_cons]
    refine insertRoles_wf (insertRole_wf h (hfree role (by simp))) hnodup.2 ?_
    rintro role' hmem ⟨id, r, hget, hname, -⟩
    rw [insertRole_access] at hget
    simp only [Access.insert, Function.update_apply] at hget
    by_cases hid : id = t.access.next
    · simp only [hid, if_true, Option.some.injEq] at hget
      exact hnodup.1 role' hmem (by rw [← hname, ← hget])
    · simp only [hid, if_false] at hget
      exact hfree role' (by simp [hmem]) ⟨id, r, hget, hname, by simp⟩

theorem insertRoles_access : ∀ (roles : List Role) (t : Tables),
    (roles.foldl (fun t role => (insertRole t role).1) t).access = roles.foldl Access.insert t.access
  | [], _ => rfl
  | role :: roles, t => by
    rw [List.foldl_cons, insertRoles_access roles, insertRole_access]
    rfl

theorem insertRoles_sequences : ∀ (roles : List Role) (t : Tables),
    (roles.foldl (fun t role => (insertRole t role).1) t).nextRole = t.nextRole + roles.length ∧
      (roles.foldl (fun t role => (insertRole t role).1) t).nextUser = t.nextUser
  | [], t => by simp
  | role :: roles, t => by
    obtain ⟨hr, hu⟩ := insertRoles_sequences roles (insertRole t role).1
    refine ⟨?_, hu⟩
    rw [List.foldl_cons, hr, List.length_cons]
    simp only [insertRole]
    omega

theorem seedDefaultRoles_names {roles : List Role} (h : SlurmWeb.seedDefaultRoles M.val = .ok roles) :
    (roles.map Role.name).Nodup := by
  have hnames : ∀ {seeds : List (Str × Str × List Str)} {roles : List Role},
      List.Forall₂ (fun seed role => seedRole M.val seed = .ok role) seeds roles →
        roles.map Role.name = seeds.map Prod.fst := by
    intro seeds roles hall
    induction hall with
    | nil => rfl
    | cons hseed _ ih =>
      obtain ⟨permissions, -, hseed⟩ := Except.bind_eq_ok.1 hseed
      obtain ⟨actions, -, hseed⟩ := Except.bind_eq_ok.1 hseed
      cases hseed
      simp [ih]
  rw [hnames (Except.mapM_eq_ok.1 h)]
  decide

/-! ## Every call -/

theorem exists_role_iff : (∃ id, (t.access.roles id).isSome) ↔ t.roles.entries ≠ [] := by
  constructor
  · rintro ⟨id, hid⟩ hnil
    obtain ⟨role, hrole⟩ := Option.isSome_iff_exists.1 hid
    have := Dict.mem_entries_iff.2 (show t.roles.get id = some role from hrole)
    rw [hnil] at this
    cases this
  · intro hne
    obtain ⟨row, hrow⟩ := List.exists_mem_of_ne_nil _ hne
    exact ⟨row.1, by simp [Tables.access, Dict.mem_entries_iff.1 hrow]⟩

/-- A call that was refused, in the tables and in what they mean. -/
structure Specified (M : NormalMap) (t : Tables) (c : Call) (r : Tables × Option StoreError) : Prop where
  wf : r.1.Wf
  access : r.1.access = t.access.apply M c
  raises : r.2 = t.access.refusal M c

/-- A transaction without an error of its own. -/
theorem specified_commit {α : Type} (h : t.Wf) {c : Call} {t' : Tables} {value : α} (hwf : t'.Wf)
    (hrefusal : t.access.refusal M c = c.fate.error) (heffect : t'.access = t.access.effect M c)
    (hdrawn : t'.nextRole = t.nextRole + t.access.drawn M c) (huser : t.nextUser ≤ t'.nextUser) :
    Specified M t c (outcome (commit c.fate t t' value)) := by
  cases hfate : c.fate with
  | taken =>
    rw [hfate] at hrefusal
    exact ⟨hwf, by rw [Access.apply, if_pos (.inl hrefusal)]; exact heffect, hrefusal.symm⟩
  | unanswered =>
    rw [hfate] at hrefusal
    exact ⟨hwf, by rw [Access.apply, if_pos (.inr ⟨hrefusal, hfate⟩)]; exact heffect, hrefusal.symm⟩
  | refused =>
    rw [hfate] at hrefusal
    have hnot : ¬ t.access.Takes M c := by simp [Access.Takes, hrefusal, hfate, Fate.error]
    refine ⟨rollback_wf h (by omega) huser, ?_, hrefusal.symm⟩
    rw [Access.apply, if_neg hnot]
    ext : 1
    · rfl
    · rfl
    · exact hdrawn

/-- A call that raises before it writes. -/
theorem specified_raise {c : Call} {e : StoreError} {t' : Tables} (h : t'.Wf) (hrefusal : t.access.refusal M c = some e)
    (he : e ≠ .database) (ht : t'.access = t.access) (hdrawn : t.access.drawn M c = 0) :
      Specified M t c (t', some e) := by
  refine ⟨h, ?_, hrefusal.symm⟩
  have hnot : ¬ t.access.Takes M c := by simp [Access.Takes, hrefusal, he]
  rw [Access.apply, if_neg hnot, hdrawn, ht]
  ext : 1 <;> simp

theorem createRole_specified (h : t.Wf) (role : Role) (fate : Fate) :
    Specified M t (.createRole role fate) (outcome (createRole M fate role t)) := by
  simp only [createRole]
  by_cases htaken : t.access.Taken role.name none
  · rw [if_pos (roleNameExists_iff.2 htaken)]
    exact specified_raise h (by simp [Access.refusal, htaken]) (by simp) rfl (by simp [Access.drawn, htaken])
  · rw [if_neg (fun hb => htaken (roleNameExists_iff.1 hb))]
    exact specified_commit h (insertRole_wf h htaken) (by simp [Access.refusal, Call.fate, htaken])
      (insertRole_access role) (by simp [Access.drawn, htaken, insertRole]) le_rfl

theorem updateRole_specified (h : t.Wf) (id : Int) (role : Role) (fate : Fate) :
    Specified M t (.updateRole id role fate) (outcome (updateRole M fate id role t)) := by
  simp only [updateRole]
  by_cases htaken : t.access.Taken role.name (some id)
  · rw [if_pos (roleNameExists_iff.2 htaken)]
    exact specified_raise h (by simp [Access.refusal, htaken]) (by simp) rfl rfl
  · rw [if_neg (fun hb => htaken (roleNameExists_iff.1 hb))]
    cases hget : t.roles.get id with
    | none =>
      refine specified_commit h h (by simp [Access.refusal, Call.fate, htaken]) ?_ (by simp [Access.drawn]) le_rfl
      simp [Access.effect, Tables.access, hget]
    | some old =>
      refine specified_commit h (setRole_wf h hget htaken) (by simp [Access.refusal, Call.fate, htaken]) ?_
        (by simp [Access.drawn]) le_rfl
      simp only [Access.effect, Tables.access, hget, Option.isSome_some, if_true]
      ext i : 2
      · simp [Function.update_apply, eq_comm]
      · rfl
      · rfl

theorem deleteRole_specified (h : t.Wf) (id : Int) (fate : Fate) :
    Specified M t (.deleteRole id fate) (outcome (deleteRole fate id t)) := by
  simp only [deleteRole]
  refine specified_commit h (eraseRole_wf h id) rfl ?_ (by simp [Access.drawn]) le_rfl
  ext v : 2
  · simp [Access.effect, Tables.access, Function.update_apply, eq_comm]
  · simp only [Access.effect, Tables.access, Finset.mem_filter]
    ext r
    simp only [Set.mem_ofPred_eq, Set.mem_sdiff, Set.mem_singleton_iff]
    tauto
  · rfl

theorem setUserRoles_specified (h : t.Wf) (username : Str) (roleIds : List Int) (fate : Fate) :
    Specified M t (.setUserRoles username roleIds fate)
      (outcome (setUserRoles M collate fate username roleIds t)) := by
  have hget := (@upsertUser_get t username (fun id => ⟨id, none, [], []⟩) id (fun _ => rfl) fun _ => rfl).1
  have hwf := @upsertUser_wf t username (fun id => ⟨id, none, [], []⟩) id h (fun _ => rfl) fun _ => rfl
  have haccess := @upsertUser_access t username (fun id => ⟨id, none, [], []⟩) id h (fun _ => rfl) fun _ => rfl
  have hexist := @roleIdsExist_iff (ensureUser t username).1 roleIds
  simp only [setUserRoles]
  by_cases hall : ∀ id ∈ roleIds, (t.roles.get id).isSome
  · have hb : roleIdsExist (ensureUser t username).1 roleIds = true := hexist.2 (by simpa [ensureUser] using hall)
    rw [if_neg (by simp [hb])]
    refine specified_commit h (assign_wf hwf hget (hexist.1 hb)) (if_pos hall) ?_
      (by simp [ensureUser, Access.drawn]) (by simp [ensureUser])
    refine (assign_access hwf hget roleIds).trans ?_
    rw [haccess]
    rfl
  · have hb : roleIdsExist (ensureUser t username).1 roleIds = false := by
      rw [← Bool.not_eq_true, hexist]
      simpa [ensureUser] using hall
    rw [if_pos (by simp [hb])]
    refine specified_raise (rollback_wf h (by simp [ensureUser]) (by simp [ensureUser]))
      (if_neg hall) (by simp) ?_ rfl
    ext : 1
    · rfl
    · rfl
    · simp [rollback, Tables.access, ensureUser]

theorem seedDefaultRoles_specified (h : t.Wf) (fate : Fate) :
    Specified M t (.seedDefaultRoles fate) (outcome (seedDefaultRoles M fate t)) := by
  simp only [seedDefaultRoles]
  by_cases hsome : t.roles.entries ≠ []
  · rw [if_pos hsome]
    have hex := exists_role_iff.2 hsome
    refine ⟨h, ?_, ?_⟩
    · simp [outcome, Access.apply, Access.Takes, Access.refusal, Access.effect, hex]
    · simp [outcome, Access.refusal, hex]
  · rw [if_neg hsome]
    have hex : ¬ ∃ id, (t.access.roles id).isSome := fun he => hsome (exists_role_iff.1 he)
    cases hseed : SlurmWeb.seedDefaultRoles M.val with
    | error e =>
      exact specified_raise h (by simp [Access.refusal, hex, hseed]) (by simp) rfl (by simp [Access.drawn, hseed])
    | ok roles =>
      have hfst : (insertRoles t roles).1 = roles.foldl (fun t role => (insertRole t role).1) t :=
        insertRoles_fst roles (t, [])
      have hseq := insertRoles_sequences roles t
      refine specified_commit h ?_ (by simp [Access.refusal, Call.fate, hex, hseed]) ?_ ?_ ?_
      · rw [hfst]
        refine insertRoles_wf h (seedDefaultRoles_names hseed) ?_
        rintro role - ⟨id, r, hget, -⟩
        exact hex ⟨id, by simp [hget]⟩
      · rw [hfst, insertRoles_access]
        simp [Access.effect, hex, hseed]
      · rw [hfst, hseq.1]
        simp [Access.drawn, hseed]
      · rw [hfst, hseq.2]

theorem normalizeLegacyRoleActions_specified (h : t.Wf) (fate : Fate) :
    Specified M t (.normalizeLegacyRoleActions fate) (outcome (normalizeLegacyRoleActions M fate t)) := by
  simp only [normalizeLegacyRoleActions]
  refine specified_commit h (mapRoles_wf h fun _ => rfl) rfl ?_ (by simp [Access.drawn]) le_rfl
  ext : 1
  · funext id
    simp [Access.effect, Tables.access]
  · rfl
  · rfl

theorem upsertLdapUser_specified (h : t.Wf) (username : Str) (fullname : Option Str)
    (policyRoles policyActions : List Str) (fate : Fate) :
      Specified M t (.upsertLdapUser username fullname policyRoles policyActions fate)
        (outcome (upsertLdapUser fate username fullname policyRoles policyActions t)) := by
  simp only [upsertLdapUser]
  by_cases hname : username = []
  · rw [if_pos hname]
    refine ⟨h, ?_, ?_⟩
    · simp [outcome, Access.apply, Access.Takes, Access.refusal, Access.effect, hname]
    · simp [outcome, Access.refusal, hname]
  · rw [if_neg hname]
    exact specified_commit h (upsertUser_wf h (fun _ => rfl) fun _ => rfl)
      (by simp [Access.refusal, Call.fate, hname])
      (upsertUser_access h (fun _ => rfl) fun _ => rfl) (by simp [Access.drawn]) (by simp)

theorem exec_specified (h : t.Wf) (c : Call) : Specified M t c (c.exec M collate t) := by
  cases c with
  | createRole role fate => exact createRole_specified h role fate
  | updateRole id role fate => exact updateRole_specified h id role fate
  | deleteRole id fate => exact deleteRole_specified h id fate
  | setUserRoles username roleIds fate => exact setUserRoles_specified h username roleIds fate
  | seedDefaultRoles fate => exact seedDefaultRoles_specified h fate
  | normalizeLegacyRoleActions fate => exact normalizeLegacyRoleActions_specified h fate
  | upsertLdapUser username fullname policyRoles policyActions fate =>
    exact upsertLdapUser_specified h username fullname policyRoles policyActions fate

/-! ## Runs -/

/-- The calls as `Access` sees them. -/
noncomputable def Access.applyAll (M : NormalMap) (calls : List Call) (a : Access) : Access :=
  calls.foldl (fun a c => a.apply M c) a

/-- **Any sequence of calls**, taken by the database or not, keeps the invariants, and does to the
tables what it does to `Access`. -/
theorem run_access : ∀ (calls : List Call) {t : Tables}, t.Wf →
    (run M collate calls t).Wf ∧ (run M collate calls t).access = t.access.applyAll M calls
  | [], _, h => ⟨h, rfl⟩
  | c :: calls, t, h => by
    have hc := @exec_specified M collate t h c
    obtain ⟨hwf, haccess⟩ := run_access calls hc.wf
    refine ⟨hwf, ?_⟩
    rw [hc.access] at haccess
    exact haccess

theorem run_wf (calls : List Call) (h : t.Wf) : (run M collate calls t).Wf := (run_access calls h).1

variable (M collate) in
/-- What the calls raise, one after the other. -/
def errors : List Call → Tables → List (Option StoreError)
  | [], _ => []
  | c :: calls, t => (c.exec M collate t).2 :: errors calls (c.exec M collate t).1

noncomputable def Access.errors (M : NormalMap) : List Call → Access → List (Option StoreError)
  | [], _ => []
  | c :: calls, a => a.refusal M c :: Access.errors M calls (a.apply M c)

theorem run_errors : ∀ (calls : List Call) {t : Tables}, t.Wf → errors M collate calls t = t.access.errors M calls
  | [], _, _ => rfl
  | c :: calls, t, h => by
    have hc := @exec_specified M collate t h c
    rw [errors, Access.errors, hc.raises, run_errors calls hc.wf, hc.access]

/-! ## What a user is allowed -/

variable (M collate) in
/-- The store the policy manager asks, over these tables. -/
def Tables.store (t : Tables) : AccessControlStore where
  legacyPermissionMap := M.val
  roleRows username := some ((heldRoles collate t username).map Prod.snd)

variable (M collate) in
/-- The policy manager with access control over these tables. -/
def policyManager (file : FilePolicy) (t : Tables) : AccessControlPolicyManager where
  filePolicy := file
  accessControlEnabled := true
  accessControlStore := some (t.store M collate)
  legacyPermissionMap := M.val

/-- The rules a role gives: those it is stored with, and those of its actions. -/
def roleGrants (M : NormalMap) (role : Role) : Set PermissionRule :=
  expand M.val.bundle {x | x ∈ role.actions} ∪
    ruleSet (RoleMigration.derivePermissions M.val.rules role.actions role.permissions.val)

/-- The rules of the roles a user holds. -/
def Access.grants (M : NormalMap) (a : Access) (username : Str) : Set PermissionRule :=
  {r | ∃ id ∈ a.held username, ∃ role, a.roles id = some role ∧ r ∈ roleGrants M role}

theorem mem_heldRoles {username : Str} {id : Int} {role : Role} :
    (id, role) ∈ heldRoles collate t username ↔ id ∈ t.access.held username ∧ t.access.roles id = some role := by
  unfold heldRoles Tables.access
  cases hu : t.users.get username with
  | none => simp [hu]
  | some user => simp [orderByName, Dict.mem_entries_iff, and_comm, hu]

theorem customGrants_eq (file : FilePolicy) (login : Str) (groups : List Str) :
    (policyManager M collate file t).customGrants (.authenticated login groups) = t.access.grants M login := by
  have hcustom : (policyManager M collate file t).customPermissions (.authenticated login groups) =
      (t.store M collate).userPermissions login := rfl
  have hpermissions : (t.store M collate).userPermissions login =
      some ⟨((heldRoles collate t login).map Prod.snd).map Role.name,
        ((heldRoles collate t login).map Prod.snd).flatMap Role.actions,
        ((heldRoles collate t login).map Prod.snd).flatMap (t.store M collate).derivePermissions⟩ := rfl
  unfold AccessControlPolicyManager.customGrants
  rw [hcustom, hpermissions]
  have hheld : ∀ role, role ∈ (heldRoles collate t login).map Prod.snd ↔
      ∃ id ∈ t.access.held login, t.access.roles id = some role := by
    intro role
    simp only [List.mem_map, Prod.exists, exists_eq_right, mem_heldRoles]
  ext r
  constructor
  · rintro (⟨action, haction, hr⟩ | ⟨s, hs, hr⟩)
    · obtain ⟨role, hrole, haction⟩ := List.mem_flatMap.1 haction
      obtain ⟨id, hid, hget⟩ := (hheld role).1 hrole
      exact ⟨id, hid, role, hget, .inl ⟨action, haction, hr⟩⟩
    · obtain ⟨role, hrole, hs⟩ := List.mem_flatMap.1 hs
      obtain ⟨id, hid, hget⟩ := (hheld role).1 hrole
      exact ⟨id, hid, role, hget, .inr ⟨s, hs, hr⟩⟩
  · rintro ⟨id, hid, role, hget, ⟨action, haction, hr⟩ | ⟨s, hs, hr⟩⟩
    · exact .inl ⟨action, List.mem_flatMap.2 ⟨role, (hheld role).2 ⟨id, hid, hget⟩, haction⟩, hr⟩
    · exact .inr ⟨s, List.mem_flatMap.2 ⟨role, (hheld role).2 ⟨id, hid, hget⟩, hs⟩, hr⟩

def Access.empty : Access := ⟨fun _ => none, fun _ => ∅, 1⟩

theorem empty_access : Tables.empty.access = Access.empty := by
  ext : 1
  · rfl
  · funext v
    ext id
    simp [Tables.access, Tables.empty, Access.empty]
  · rfl

/-- **The store does to its tables what `Access` says**, from the empty database on: the names of
roles stay unique, nobody holds a role that does not exist, every call raises the error it should,
and one that raises changes no role and no assignment, unless only its answer is lost. -/
theorem run_simulates (M : NormalMap) (collate : Str → Str → Bool) (calls : List Call) :
    (run M collate calls Tables.empty).Wf ∧
      (run M collate calls Tables.empty).access = Access.empty.applyAll M calls ∧
      errors M collate calls Tables.empty = Access.empty.errors M calls ∧
      ∀ c : Call, (c.exec M collate (run M collate calls Tables.empty)).2 ≠ none → c.fate ≠ .unanswered →
        (c.exec M collate (run M collate calls Tables.empty)).1.access.roles =
          (run M collate calls Tables.empty).access.roles ∧
        (c.exec M collate (run M collate calls Tables.empty)).1.access.held =
          (run M collate calls Tables.empty).access.held := by
  obtain ⟨hwf, haccess⟩ := @run_access M collate calls Tables.empty empty_wf
  refine ⟨hwf, by rw [haccess, empty_access], by rw [run_errors calls empty_wf, empty_access], ?_⟩
  intro c hraises hfate
  have hc := @exec_specified M collate _ hwf c
  rw [hc.raises] at hraises
  rw [hc.access]
  exact Access.apply_raises M hraises hfate

/-- **What a user is allowed after any sequence of calls**: what the policy file grants, and what
the roles grant that the user then holds. -/
theorem decision_iff (M : NormalMap) (collate : Str → Str → Bool) (file : FilePolicy) (calls : List Call) (login : Str)
    (groups : List Str) (resource operation scope : Str) :
    ∃ b, (policyManager M collate file (run M collate calls Tables.empty)).allowedUserPermission
        (.authenticated login groups) resource operation scope = .ok b ∧
      (b = true ↔ permissionLanguage.Grants
        (expand M.val.bundle {x | x ∈ (file.rolesActions (.authenticated login groups)).2} ∪
        (Access.empty.applyAll M calls).grants M login) ⟨resource, operation, scope⟩) := by
  obtain ⟨b, hb, hiff⟩ := AccessControlPolicyManager.allowedUserPermission_available
    (m := policyManager M collate file (run M collate calls Tables.empty)) rfl login groups resource operation scope
  refine ⟨b, hb, ?_⟩
  rw [hiff]
  unfold AccessControlPolicyManager.granted
  rw [customGrants_eq, (run_access calls empty_wf).2, empty_access]
  rfl

/-! ## Deleted roles -/

/-- The id was given out, and nothing has it any more. -/
structure Access.Gone (a : Access) (id : Int) : Prop where
  role : a.roles id = none
  held : ∀ username, id ∉ a.held username
  old : id < a.next

theorem insert_gone {a : Access} {id : Int} (h : a.Gone id) (role : Role) : (a.insert role).Gone id := by
  have hne : id ≠ a.next := by
    have := h.old
    omega
  refine ⟨by simp [Access.insert, hne, h.role], h.held, ?_⟩
  have := h.old
  change id < a.next + 1
  omega

theorem insertAll_gone {id : Int} : ∀ (roles : List Role) {a : Access}, a.Gone id →
    (roles.foldl Access.insert a).Gone id
  | [], _, h => h
  | role :: roles, _, h => insertAll_gone roles (insert_gone h role)

theorem apply_gone {a : Access} {id : Int} (h : a.Gone id) (c : Call) : (a.apply M c).Gone id := by
  rcases a.apply_cases M c with ⟨htakes, heq⟩ | heq <;> rw [heq]
  · cases c with
    | createRole role fate => exact insert_gone h role
    | updateRole id' role fate =>
      simp only [Access.effect]
      by_cases hs : (a.roles id').isSome
      · rw [if_pos hs]
        have hne : id ≠ id' := by
          rintro rfl
          simp [h.role] at hs
        exact ⟨by simp [hne, h.role], h.held, h.old⟩
      · rw [if_neg hs]
        exact h
    | deleteRole id' fate =>
      refine ⟨?_, fun username hmem => h.held username hmem.1, h.old⟩
      by_cases hne : id = id' <;> simp [Access.effect, hne, h.role]
    | setUserRoles username roleIds fate =>
      refine ⟨h.role, ?_, h.old⟩
      intro v hmem
      simp only [Access.effect, Function.update_apply] at hmem
      by_cases hv : v = username
      · -- an assignment of a role that is gone is refused
        simp only [hv, if_true, Set.mem_ofPred_eq] at hmem
        have hno : ¬ ∀ i ∈ roleIds, (a.roles i).isSome := by
          intro hall
          simpa [h.role] using hall id hmem
        simp [Access.Takes, Access.refusal, hno] at htakes
      · simp only [hv, if_false] at hmem
        exact h.held v hmem
    | seedDefaultRoles fate =>
      simp only [Access.effect]
      split
      · exact h
      · split
        · exact h
        · exact insertAll_gone _ h
    | normalizeLegacyRoleActions fate => exact ⟨by simp [Access.effect, h.role], h.held, h.old⟩
    | upsertLdapUser username fullname policyRoles policyActions fate => exact h
  · refine ⟨h.role, h.held, ?_⟩
    have := h.old
    change id < a.next + (a.drawn M c : Int)
    omega

theorem applyAll_gone {id : Int} : ∀ (calls : List Call) {a : Access}, a.Gone id → (a.applyAll M calls).Gone id
  | [], _, h => h
  | c :: calls, _, h => applyAll_gone calls (apply_gone h c)

/-- **A deleted role stays deleted**: whatever is called afterwards, no role has its id and nobody
holds it, so what it granted is granted by other roles or not at all. -/
theorem deleted_for_good (M : NormalMap) (collate : Str → Str → Bool) (before after : List Call)
    {id : Int} {role : Role}
    (hrole : (run M collate before Tables.empty).roles.get id = some role) {fate : Fate} (hfate : fate ≠ .refused) :
    let t := run M collate (before ++ .deleteRole id fate :: after) Tables.empty
    t.roles.get id = none ∧ ∀ username, ∀ row ∈ heldRoles collate t username, row.1 ≠ id := by
  have hwf := @run_wf M collate Tables.empty before empty_wf
  have hsplit : run M collate (before ++ .deleteRole id fate :: after) Tables.empty =
      run M collate (.deleteRole id fate :: after) (run M collate before Tables.empty) := by
    simp [run, List.foldl_append]
  intro t
  have ht : t.access = ((run M collate before Tables.empty).access.apply M (.deleteRole id fate)).applyAll M after := by
    change (run M collate (before ++ .deleteRole id fate :: after) Tables.empty).access = _
    rw [hsplit, (run_access _ hwf).2]
    rfl
  have htakes : (run M collate before Tables.empty).access.Takes M (.deleteRole id fate) := by
    cases fate with
    | taken => exact .inl rfl
    | refused => exact absurd rfl hfate
    | unanswered => exact .inr ⟨rfl, rfl⟩
  have hgone : t.access.Gone id := by
    rw [ht, Access.apply, if_pos htakes]
    refine applyAll_gone after ⟨?_, ?_, ?_⟩
    · simp [Access.effect]
    · intro username
      simp [Access.effect]
    · exact hwf.roleIds id role hrole
  refine ⟨hgone.role, ?_⟩
  rintro username ⟨i, r⟩ hrow rfl
  exact hgone.held username (mem_heldRoles.1 hrow).1

def defaultMap : NormalMap := ⟨defaultLegacyMap, defaultLegacyMap_normal⟩

/-- A role is made, given to alice and deleted; then somebody tries to give it to bob. -/
theorem deleted_for_good_dashboards :
    let t := run defaultMap le ([.createRole dashboardRole .taken, .setUserRoles "alice" [1] .unanswered] ++
      .deleteRole 1 .taken :: [.setUserRoles "bob" [1] .taken, .createRole aiViewer .taken]) Tables.empty
    t.roles.get 1 = none ∧ ∀ username, ∀ row ∈ heldRoles le t username, row.1 ≠ 1 :=
  deleted_for_good defaultMap le [.createRole dashboardRole .taken, .setUserRoles "alice" [1] .unanswered]
    [.setUserRoles "bob" [1] .taken, .createRole aiViewer .taken] rfl (by decide)

/-! ## Other users -/

/-- Every role that is held exists, under an id that was given out. -/
structure Access.Sound (a : Access) : Prop where
  held : ∀ username, ∀ id ∈ a.held username, ∃ role, a.roles id = some role
  next : ∀ id role, a.roles id = some role → id < a.next

theorem Tables.Wf.sound (h : t.Wf) : t.access.Sound := by
  refine ⟨?_, h.roleIds⟩
  rintro username id ⟨user, -, hmem⟩
  exact (h.assigned _ _ hmem).2

/-- A call that is not about this user, and not about a role the user holds. -/
def Call.Apart (held : Set Int) (login : Str) : Call → Prop
  | .updateRole id _ _ | .deleteRole id _ => id ∉ held
  | .setUserRoles username _ _ => username ≠ login
  | .normalizeLegacyRoleActions _ => False
  | .createRole _ _ | .seedDefaultRoles _ | .upsertLdapUser _ _ _ _ _ => True

/-- The user holds the same roles, and they are what they were. -/
structure Access.Agree (a b : Access) (login : Str) : Prop where
  held : b.held login = a.held login
  roles : ∀ id ∈ a.held login, b.roles id = a.roles id
  next : a.next ≤ b.next

theorem Access.Agree.refl (a : Access) (login : Str) : a.Agree a login := ⟨rfl, fun _ _ => rfl, le_rfl⟩

theorem Access.Agree.grants {a b : Access} {login : Str} (h : a.Agree b login) :
    b.grants M login = a.grants M login := by
  ext r
  unfold Access.grants
  rw [h.held]
  constructor
  · rintro ⟨id, hid, role, hrole, hr⟩
    exact ⟨id, hid, role, (h.roles id hid).symm.trans hrole, hr⟩
  · rintro ⟨id, hid, role, hrole, hr⟩
    exact ⟨id, hid, role, (h.roles id hid).trans hrole, hr⟩

theorem insert_agree {a b : Access} {login : Str} (hs : a.Sound) (h : a.Agree b login) (role : Role) :
    a.Agree (b.insert role) login := by
  refine ⟨h.held, ?_, ?_⟩
  · intro id hid
    obtain ⟨old, hold⟩ := hs.held login id hid
    have hlt := hs.next id old hold
    have hle := h.next
    have hne : id ≠ b.next := by omega
    simp [Access.insert, hne, h.roles id hid]
  · have hle := h.next
    change a.next ≤ b.next + 1
    omega

theorem insertAll_agree {a : Access} {login : Str} (hs : a.Sound) :
    ∀ (roles : List Role) {b : Access}, a.Agree b login → a.Agree (roles.foldl Access.insert b) login
  | [], _, h => h
  | role :: roles, _, h => insertAll_agree hs roles (insert_agree hs h role)

theorem apply_agree {a b : Access} {login : Str} (hs : a.Sound) (h : a.Agree b login) {c : Call}
    (hc : c.Apart (a.held login) login) : a.Agree (b.apply M c) login := by
  rcases b.apply_cases M c with ⟨-, heq⟩ | heq <;> rw [heq]
  · cases c with
    | createRole role fate => exact insert_agree hs h role
    | updateRole id role fate =>
      simp only [Access.effect]
      split
      · refine ⟨h.held, ?_, h.next⟩
        intro i hi
        have hne : i ≠ id := by
          rintro rfl
          exact hc hi
        simp [hne, h.roles i hi]
      · exact h
    | deleteRole id fate =>
      refine ⟨?_, ?_, h.next⟩
      · simp only [Access.effect, h.held]
        exact Set.sdiff_singleton_eq_self hc
      · intro i hi
        have hne : i ≠ id := by
          rintro rfl
          exact hc hi
        simp [Access.effect, hne, h.roles i hi]
    | setUserRoles username roleIds fate =>
      refine ⟨?_, h.roles, h.next⟩
      simp only [Access.effect, ne_eq, Ne.symm hc, not_false_eq_true, Function.update_of_ne]
      exact h.held
    | seedDefaultRoles fate =>
      simp only [Access.effect]
      split
      · exact h
      · split
        · exact h
        · exact insertAll_agree hs _ h
    | normalizeLegacyRoleActions fate => exact absurd hc id
    | upsertLdapUser username fullname policyRoles policyActions fate => exact h
  · refine ⟨h.held, h.roles, ?_⟩
    have hle := h.next
    change a.next ≤ b.next + (b.drawn M c : Int)
    omega

theorem applyAll_agree {a : Access} {login : Str} (hs : a.Sound) : ∀ {calls : List Call} {b : Access}, a.Agree b login →
    (∀ c ∈ calls, c.Apart (a.held login) login) → a.Agree (b.applyAll M calls) login
  | [], _, h, _ => h
  | c :: calls, b, h, hc => by
    have hstep := apply_agree (M := M) hs h (hc c (by simp))
    have hrest : a.Agree ((b.apply M c).applyAll M calls) login :=
      applyAll_agree hs hstep fun c' hc' => hc c' (List.mem_cons_of_mem c hc')
    exact hrest

/-- **Calls about other users and other roles leave a user's rights alone**, however many there are
and whether the database takes them or not. -/
theorem run_granted_of_apart (M : NormalMap) (collate : Str → Str → Bool) (file : FilePolicy) {t : Tables} (h : t.Wf)
    {calls : List Call} {login : Str} (hc : ∀ c ∈ calls, c.Apart (t.access.held login) login) (groups : List Str) :
    (policyManager M collate file (run M collate calls t)).granted (.authenticated login groups) =
      (policyManager M collate file t).granted (.authenticated login groups) := by
  unfold AccessControlPolicyManager.granted
  rw [customGrants_eq, customGrants_eq, (run_access calls h).2]
  rw [(applyAll_agree h.sound (.refl t.access login) hc).grants]
  rfl

/-- A policy file that grants nothing. -/
def noPolicy : FilePolicy := ⟨fun _ => ([], []), fun _ => false, []⟩

/-- Alice's dashboards, and calls about bob and about another role. -/
def aliceCalls : List Call := [.createRole dashboardRole .taken, .setUserRoles "alice" [1] .taken]

theorem run_granted_of_apart_alice :
    (policyManager defaultMap le noPolicy
      (run defaultMap le [.createRole aiViewer .taken, .setUserRoles "bob" [1, 2] .taken,
        .deleteRole 2 .taken] (run defaultMap le aliceCalls Tables.empty))).granted (.authenticated "alice" []) =
      (policyManager defaultMap le noPolicy (run defaultMap le aliceCalls Tables.empty)).granted
        (.authenticated "alice" []) := by
  have hwf := @run_wf defaultMap le Tables.empty aliceCalls empty_wf
  refine run_granted_of_apart defaultMap le noPolicy hwf ?_ []
  intro c hc
  simp only [List.mem_cons, List.not_mem_nil, or_false] at hc
  rcases hc with rfl | rfl | rfl
  · exact True.intro
  · exact (by decide : "bob".toList ≠ "alice".toList)
  · intro hmem
    obtain ⟨role, hrole⟩ := hwf.sound.held _ _ hmem
    cases hrole

end SlurmWeb.RoleStore
