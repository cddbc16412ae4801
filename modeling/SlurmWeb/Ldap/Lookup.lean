import SlurmWeb.Lib.Except
import SlurmWeb.Lib.LdapTemplate
import SlurmWeb.Lib.Lists

/-!
# Identities in the directory (slurmweb/ldap_ext.py)

Logging in asks the directory for the DN of a login, then for the groups of both. Each is one search
filter, put together as a string, and sent to the configured bases in turn; a base that does not exist is
passed over.

| here | there |
| --- | --- |
| `iterUserBases`, `iterGroupBases` | `_iter_user_bases` (:31), `_iter_group_bases` (:38) |
| `getGroups` | `_patched_get_groups` (:87) |
| `lookup` | `_patched_lookup_user_dn` (:139) |
| `Server` | a bound connection of python-ldap |
| `Directory.server` | a server that reads filters as RFC 4515 has them |

* `identities_iff` — the login and the DN select that very identity in every directory exactly when they
  hold none of the characters a filter reserves.
* `wildcard_logs_in` — a login that is nobody's and finds somebody.
-/

namespace SlurmWeb.Ldap

open Strings LdapFilter

/-! ## The authentifier -/

def objectClass : Str := "objectClass".toList

def memberUid : Str := "memberUid".toList

def member : Str := "member".toList

def gidNumber : Str := "gidNumber".toList

/-- What python-ldap raises. -/
inductive LdapError
  | noSuchObject
  | serverDown
  | operationsError (text : Str)
  | filterError
  | other (text : Str)
deriving DecidableEq

/-- What the two functions raise; `raised` and `undecodable` are left to the caller. -/
inductive AuthError
  | unreachable (uri : Str)
  | operationsError (text : Str)
  | unableToFindUser (user : Str) (bases : List Str)
  | tooManyUsers (count : Nat) (user : Str) (bases : List Str)
  | noGroupName (attr : Str)
  | noGroupBase (bases : List Str)
  | undecodable
  | raised (error : LdapError)
deriving DecidableEq

/-- An entry found: its DN, and the values of the attribute asked for. -/
structure Result where
  dn : Str
  values : List Octets
deriving DecidableEq

/-- What a connection answers. -/
structure Server where
  bind : Except LdapError Unit
  /-- `search_s(base, SCOPE_SUBTREE, filter, [attr])` -/
  searchS : Str → Str → Str → Except LdapError (List Result)

/-- The settings the searches read. -/
structure Authentifier where
  uri : Str
  lookupUserDn : Bool
  userBase : Str
  groupBase : Str
  userBases : List Str
  groupBases : List Str
  userClass : Str
  userNameAttribute : Str
  groupNameAttribute : Str
  groupObjectClasses : List Str
  userClass_plain : Plain userClass
  userNameAttribute_description : isDescription userNameAttribute = true
  userNameAttribute_ne : userNameAttribute ≠ objectClass
  groupObjectClasses_ne : groupObjectClasses ≠ []
  groupObjectClasses_plain : ∀ c ∈ groupObjectClasses, Plain c

namespace Authentifier

variable (self : Authentifier)

def iterUserBases : List Str := if self.userBases ≠ [] then self.userBases else [self.userBase]

def iterGroupBases : List Str := if self.groupBases ≠ [] then self.groupBases else [self.groupBase]

def userFilter (user : Str) : Str :=
  "(&(objectClass=".toList ++ self.userClass ++ ")(".toList ++ self.userNameAttribute ++
    "=".toList ++ user ++ "))".toList

/-- The results of all bases (:146-174). -/
def searchUsers (server : Server) (searchFilter : Str) : List Str → Except AuthError (List Result)
  | [] => .ok []
  | base :: bases =>
    match server.bind >>= fun _ => server.searchS base searchFilter self.userNameAttribute with
    | .error .serverDown => .error (.unreachable self.uri)
    | .error .noSuchObject => searchUsers server searchFilter bases
    | .error (.operationsError text) => .error (.operationsError text)
    | .error error => .error (.raised error)
    | .ok results => (results ++ ·) <$> searchUsers server searchFilter bases

def lookup (server : Server) (user : Str) : Except AuthError Str :=
  if ¬ self.lookupUserDn then .ok (self.userNameAttribute ++ "=".toList ++ user ++ ",".toList ++ self.userBase)
  else do
    let found ← self.searchUsers server (self.userFilter user) self.iterUserBases
    match (found.map Result.dn).eraseDups with
    | [] => .error (.unableToFindUser user self.iterUserBases)
    | [dn] => .ok dn
    | dns => .error (.tooManyUsers dns.length user self.iterUserBases)

/-- `(gidNumber=..)`, where there is one. -/
def gidFilter : Option Int → Str
  | none => []
  | some gid => "(gidNumber=".toList ++ (toString gid).toList ++ ")".toList

def groupFilter (userName userDn : Str) (gid : Option Int) : Str :=
  "(&".toList ++
    "(|".toList ++ (self.groupObjectClasses.map fun c =>
      "(objectClass=".toList ++ c ++ ")".toList).flatten ++ ")".toList ++
    "(|(memberUid=".toList ++ userName ++ ")(member=".toList ++ userDn ++ ")".toList ++ gidFilter gid ++ "))".toList

/-- `.decode()` -/
def decode (value : Octets) : Option Str := (value.toByteArray.utf8Decode?).map Array.toList

/-- `result[1][self.group_name_attribute][0].decode()` -/
def groupName (result : Result) : Except AuthError Str :=
  match result.values with
  | [] => .error (.noGroupName self.groupNameAttribute)
  | value :: _ =>
    match decode value with
    | none => .error .undecodable
    | some name => .ok name

/-- Whether a base exists, and the names of the groups in all (:99-124). -/
def searchGroups (server : Server) (searchFilter : Str) : List Str → Except AuthError (Bool × List Str)
  | [] => .ok (false, [])
  | base :: bases =>
    match server.searchS base searchFilter self.groupNameAttribute with
    | .error .noSuchObject => searchGroups server searchFilter bases
    | .error error => .error (.raised error)
    | .ok results => do
      let names ← results.mapM self.groupName
      let (_, more) ← searchGroups server searchFilter bases
      .ok (true, names ++ more)

def getGroups (server : Server) (userName userDn : Str) (gid : Option Int) : Except AuthError (List Str) := do
  let (foundAnyBase, groups) ← self.searchGroups server (self.groupFilter userName userDn gid) self.iterGroupBases
  if ¬ foundAnyBase then .error (.noGroupBase self.iterGroupBases)
  else if groups = [] then .ok []
  else .ok (sortedSet groups)

end Authentifier

/-! ## The directory -/

/-- The entries under each base that exists, and the matching rules. -/
structure Directory where
  rules : Rules
  subtree : Str → Option (List Entry)

namespace Directory

variable (dir : Directory)

def matching (f : Filter) (e : Entry) : Bool := eval dir.rules e f = some true

/-- A server that evaluates the filter it is given. -/
def server : Server where
  bind := .ok ()
  searchS base text attr :=
    match parse text with
    | none => .error .filterError
    | some f =>
      match dir.subtree base with
      | none => .error .noSuchObject
      | some entries => .ok ((entries.filter (dir.matching f)).map fun e => ⟨e.dn, e.values attr⟩)

/-- The entries of the bases that exist. -/
def under (bases : List Str) : List Entry := bases.flatMap fun base => (dir.subtree base).getD []

/-- The entry has the value, by the matching rule of the attribute. -/
def Has (e : Entry) (attr value : Str) : Prop := Holds dir.rules e attr value

end Directory

/-! ## What the two functions are for -/

namespace Authentifier

variable (self : Authentifier) (dir : Directory)

/-- A user of that very login. -/
def IsUser (login : Str) (e : Entry) : Prop :=
  dir.Has e objectClass self.userClass ∧ dir.Has e self.userNameAttribute login

/-- A group of that very login, DN or gid. -/
def IsGroupOf (login dn : Str) (gid : Option Int) (e : Entry) : Prop :=
  (∃ c ∈ self.groupObjectClasses, dir.Has e objectClass c) ∧
    (dir.Has e memberUid login ∨ dir.Has e member dn ∨
      ∃ g ∈ gid, dir.Has e gidNumber (toString g).toList)

/-- The name of a group. -/
def HasName (e : Entry) (name : Str) : Prop := ((e.values self.groupNameAttribute).head?.bind decode) = some name

/-- The one DN of the users of the login. -/
def LookupExact (login : Str) : Prop :=
  ∀ dn, self.lookup dir.server login = .ok dn ↔
    (∃ e ∈ dir.under self.iterUserBases, self.IsUser dir login e ∧ e.dn = dn) ∧
      ∀ e ∈ dir.under self.iterUserBases, self.IsUser dir login e → e.dn = dn

/-- The names of the groups, in order and once each. It raises where no base exists, and where a group has no
name that can be read. -/
def GroupsExact (login dn : Str) (gid : Option Int) : Prop :=
  ∀ names, self.getGroups dir.server login dn gid = .ok names ↔
    (∃ base ∈ self.iterGroupBases, dir.subtree base ≠ none) ∧
      (∀ e ∈ dir.under self.iterGroupBases, self.IsGroupOf dir login dn gid e → ∃ name, self.HasName e name) ∧
      names.Pairwise (· < ·) ∧
      ∀ name, name ∈ names ↔ ∃ e ∈ dir.under self.iterGroupBases,
        self.IsGroupOf dir login dn gid e ∧ self.HasName e name

end Authentifier

/-! ## What the searches return -/

theorem Directory.mem_under {dir : Directory} {bases : List Str} {e : Entry} :
    e ∈ dir.under bases ↔ ∃ base ∈ bases, ∃ entries, dir.subtree base = some entries ∧ e ∈ entries := by
  rw [Directory.under, List.mem_flatMap]
  refine exists_congr fun base => and_congr_right fun _ => ?_
  cases dir.subtree base <;> simp

namespace Authentifier

variable {self : Authentifier} {dir : Directory} {text : Str} {f : Filter}

theorem iterUserBases_ne : self.iterUserBases ≠ [] := by
  unfold iterUserBases
  split
  · assumption
  · simp

theorem iterGroupBases_ne : self.iterGroupBases ≠ [] := by
  unfold iterGroupBases
  split
  · assumption
  · simp

/-- A filter that does not parse is an error at the first base. -/
theorem searchUsers_unparsed (h : parse text = none) {bases : List Str} (hne : bases ≠ []) :
    self.searchUsers dir.server text bases = .error (.raised .filterError) := by
  obtain ⟨base, bases, rfl⟩ := List.exists_cons_of_ne_nil hne
  simp [searchUsers, Directory.server, h]

theorem searchUsers_parsed (h : parse text = some f) (bases : List Str) :
    self.searchUsers dir.server text bases =
      .ok (((dir.under bases).filter (dir.matching f)).map fun e => ⟨e.dn, e.values self.userNameAttribute⟩) := by
  induction bases with
  | nil => rfl
  | cons base bases ih =>
    rw [searchUsers, ih]
    cases hsubtree : dir.subtree base <;> simp [Directory.server, Directory.under, h, hsubtree]

theorem searchGroups_unparsed (h : parse text = none) {bases : List Str} (hne : bases ≠ []) :
    self.searchGroups dir.server text bases = .error (.raised .filterError) := by
  obtain ⟨base, bases, rfl⟩ := List.exists_cons_of_ne_nil hne
  simp [searchGroups, Directory.server, h]

theorem searchGroups_parsed (h : parse text = some f) (bases : List Str) :
    self.searchGroups dir.server text bases =
      (bases.any fun base => (dir.subtree base).isSome, ·) <$>
        (((dir.under bases).filter (dir.matching f)).map fun e =>
          (⟨e.dn, e.values self.groupNameAttribute⟩ : Result)).mapM self.groupName := by
  induction bases with
  | nil => rfl
  | cons base bases ih =>
    rw [searchGroups, ih]
    cases hsubtree : dir.subtree base with
    | none => simp [Directory.server, Directory.under, h, hsubtree]
    | some entries =>
      simp only [Directory.server, Directory.under, h, hsubtree, List.flatMap_cons,
        Option.getD_some, List.filter_append,
        List.map_append, List.mapM_append, List.any_cons, Option.isSome_some, Bool.true_or]
      simp [functor_norm]

theorem eraseDups_eq_singleton {l : List Str} {dn : Str} : l.eraseDups = [dn] ↔ dn ∈ l ∧ ∀ d ∈ l, d = dn := by
  constructor
  · intro h
    have hmem : ∀ d, d ∈ l ↔ d = dn := fun d => by rw [← List.mem_eraseDups, h, List.mem_singleton]
    exact ⟨(hmem dn).2 rfl, fun d hd => (hmem d).1 hd⟩
  · rintro ⟨hmem, hall⟩
    cases l with
    | nil => cases hmem
    | cons d l =>
      obtain rfl := hall d List.mem_cons_self
      have hrest : l.filter (fun b => !b == d) = [] := by
        rw [List.filter_eq_nil_iff]
        intro b hb
        simp [hall b (List.mem_cons_of_mem _ hb)]
      rw [List.eraseDups_cons, hrest, List.eraseDups_nil]

theorem lookup_ok (hlookup : self.lookupUserDn = true) {login dn : Str} : self.lookup dir.server login = .ok dn ↔
    ∃ f, parse (self.userFilter login) = some f ∧
      (∃ e ∈ dir.under self.iterUserBases, dir.matching f e = true ∧ e.dn = dn) ∧
        ∀ e ∈ dir.under self.iterUserBases, dir.matching f e = true → e.dn = dn := by
  rw [lookup, if_neg (by simp [hlookup]), Except.bind_eq_ok]
  cases hparse : parse (self.userFilter login) with
  | none => simp [searchUsers_unparsed hparse iterUserBases_ne]
  | some f =>
    have hdns : ∀ dns : List Str, (match dns with
        | [] => Except.error (AuthError.unableToFindUser login self.iterUserBases)
        | [dn] => .ok dn
        | dns => .error (.tooManyUsers dns.length login self.iterUserBases)) = .ok dn ↔ dns = [dn] := by
      rintro (_ | ⟨d, _ | ⟨d', dns⟩⟩) <;> simp
    have hfound : ∀ d, d ∈ ((((dir.under self.iterUserBases).filter (dir.matching f)).map fun e =>
          (⟨e.dn, e.values self.userNameAttribute⟩ : Result)).map Result.dn) ↔
        ∃ e ∈ dir.under self.iterUserBases, dir.matching f e = true ∧ e.dn = d := by
      intro d
      simp [and_assoc]
    simp only [searchUsers_parsed hparse, Except.ok.injEq, exists_eq_left', hdns, eraseDups_eq_singleton, hfound,
      Option.some.injEq]
    refine and_congr_right fun _ => ⟨fun hall e he hmatch => hall _ ⟨e, he, hmatch, rfl⟩, ?_⟩
    rintro hall _ ⟨e, he, hmatch, rfl⟩
    exact hall e he hmatch

theorem hasName_iff {e : Entry} {name : Str} :
    self.groupName ⟨e.dn, e.values self.groupNameAttribute⟩ = .ok name ↔ self.HasName e name := by
  unfold groupName HasName
  cases e.values self.groupNameAttribute with
  | nil => simp
  | cons value values =>
    cases hdecode : decode value <;> simp [hdecode]

/-- `sorted(set(..))` is the one strictly sorted list of its elements. -/
theorem sortedSet_eq_iff {l names : List Str} : sortedSet l = names ↔ names.Pairwise (· < ·) ∧
    ∀ s, s ∈ names ↔ s ∈ l := by
  have hsorted : (sortedSet l).Pairwise (· < ·) := by
    have hle : (sortedSet l).Pairwise (le · ·) := List.pairwise_insertionSort _ _
    refine (hle.and (sortedSet_nodup l)).imp fun h => lt_of_le_of_ne (le_iff.1 h.1) h.2
  constructor
  · rintro rfl
    exact ⟨hsorted, fun s => mem_sortedSet⟩
  · rintro ⟨hnames, hmem⟩
    have hperm : (sortedSet l).Perm names := by
      rw [List.perm_ext_iff_of_nodup (sortedSet_nodup l) (hnames.imp ne_of_lt)]
      intro s
      rw [mem_sortedSet, hmem]
    exact hperm.eq_of_pairwise' hsorted hnames

/-- The names of the groups found, as a sorted set. -/
theorem names_iff {found : List Entry} {names : List Str} :
    (∃ groups, (found.map fun e => (⟨e.dn, e.values self.groupNameAttribute⟩ : Result)).mapM
      self.groupName = .ok groups ∧ sortedSet groups = names) ↔
      (∀ e ∈ found, ∃ name, self.HasName e name) ∧ names.Pairwise (· < ·) ∧
        ∀ name, name ∈ names ↔ ∃ e ∈ found, self.HasName e name := by
  simp only [Except.mapM_eq_ok, List.forall₂_map_left_iff, hasName_iff, sortedSet_eq_iff]
  have hgroups : ∀ groups, List.Forall₂ self.HasName found groups →
      (∀ e ∈ found, ∃ name, self.HasName e name) ∧ ∀ name, name ∈ groups ↔ ∃ e ∈ found, self.HasName e name := by
    intro groups hall
    refine ⟨fun e he => ?_, fun name => ⟨hall.exists_left name, ?_⟩⟩
    · obtain ⟨name, -, hname⟩ := hall.exists_right e he
      exact ⟨name, hname⟩
    · rintro ⟨e, he, hname⟩
      obtain ⟨name', hname', h⟩ := hall.exists_right e he
      rw [HasName] at hname h
      rwa [Option.some.inj (hname.symm.trans h)]
  constructor
  · rintro ⟨groups, hall, hsorted, hmem⟩
    obtain ⟨hnamed, hgroups⟩ := hgroups groups hall
    exact ⟨hnamed, hsorted, fun name => (hmem name).trans (hgroups name)⟩
  · rintro ⟨hnamed, hsorted, hmem⟩
    obtain ⟨groups, hall⟩ : ∃ groups, List.Forall₂ self.HasName found groups := by
      have hreturns : Except.Returns ((found.map fun e => (⟨e.dn, e.values self.groupNameAttribute⟩ : Result)).mapM
          self.groupName) := by
        refine Except.returns_mapM.2 fun r hr => ?_
        obtain ⟨e, he, rfl⟩ := List.mem_map.1 hr
        obtain ⟨name, hname⟩ := hnamed e he
        exact ⟨name, hasName_iff.2 hname⟩
      simpa only [Except.Returns, Except.mapM_eq_ok, List.forall₂_map_left_iff, hasName_iff] using hreturns
    exact ⟨groups, hall, hsorted, fun name => (hmem name).trans ((hgroups groups hall).2 name).symm⟩

theorem getGroups_ok {login userDn : Str} {gid : Option Int} {names : List Str} :
    self.getGroups dir.server login userDn gid = .ok names ↔ ∃ f, parse (self.groupFilter login userDn gid) = some f ∧
      (∃ base ∈ self.iterGroupBases, dir.subtree base ≠ none) ∧
      (∀ e ∈ dir.under self.iterGroupBases, dir.matching f e = true → ∃ name, self.HasName e name) ∧
      names.Pairwise (· < ·) ∧
      ∀ name, name ∈ names ↔ ∃ e ∈ dir.under self.iterGroupBases, dir.matching f e = true ∧ self.HasName e name := by
  unfold getGroups
  cases hparse : parse (self.groupFilter login userDn gid) with
  | none => simp [searchGroups_unparsed hparse iterGroupBases_ne]
  | some f =>
    rw [searchGroups_parsed hparse]
    simp only [Option.some.injEq, exists_eq_left']
    generalize hfound : (dir.under self.iterGroupBases).filter (dir.matching f) = found
    have hmem : ∀ e, e ∈ found ↔ e ∈ dir.under self.iterGroupBases ∧ dir.matching f e = true := by
      intro e
      rw [← hfound, List.mem_filter]
    have hany : (self.iterGroupBases.any fun base => (dir.subtree base).isSome) = true ↔
        ∃ base ∈ self.iterGroupBases, dir.subtree base ≠ none := by
      simp [List.any_eq_true, Option.isSome_iff_ne_none]
    have hreturned : ∀ (any : Bool) (groups : Except AuthError (List Str)),
        ((any, ·) <$> groups >>= fun (foundAnyBase, groups) =>
          if ¬ foundAnyBase then Except.error (AuthError.noGroupBase self.iterGroupBases)
          else if groups = [] then .ok [] else .ok (sortedSet groups)) = .ok names ↔
        any = true ∧ ∃ l, groups = .ok l ∧ sortedSet l = names := by
      rintro any (error | l)
      · simp
      · cases any <;> by_cases hl : l = [] <;> simp [hl]
    rw [hreturned, hany, names_iff]
    simp only [hmem, and_imp, and_assoc]

/-! ## Plain texts -/

/-- What the user filter asks for. -/
def userPairs (self : Authentifier) (login : Str) : List (Str × Str) :=
  [(objectClass, self.userClass), (self.userNameAttribute, login)]

def classPairs (self : Authentifier) : List (Str × Str) := self.groupObjectClasses.map fun c => (objectClass, c)

def memberPairs (login userDn : Str) (gid : Option Int) : List (Str × Str) :=
  (memberUid, login) :: (member, userDn) ::
    gid.toList.map fun g => (gidNumber, (toString g).toList)

theorem userFilter_eq (login : Str) :
    self.userFilter login = '(' :: '&' :: ((assertions (self.userPairs login)).flatten ++ [')']) := by
  change ('(' :: '&' :: '(' :: (objectClass ++ ['='])) ++ self.userClass ++ [')', '('] ++
    self.userNameAttribute ++ ['='] ++ login ++ [')', ')'] = _
  simp [assertions, userPairs, assertion]

theorem groupFilter_eq (login userDn : Str) (gid : Option Int) :
    self.groupFilter login userDn gid = '(' :: '&' ::
      ([('(' :: '|' :: ((assertions self.classPairs).flatten ++ [')'])),
        ('(' :: '|' :: ((assertions (memberPairs login userDn gid)).flatten ++ [')']))].flatten ++ [')']) := by
  have hclasses : (self.groupObjectClasses.map fun c => "(objectClass=".toList ++ c ++ ")".toList) =
      assertions self.classPairs := by
    rw [assertions, classPairs, List.map_map]
    refine List.map_congr_left fun c _ => ?_
    change '(' :: (objectClass ++ ['=']) ++ c ++ [')'] = _
    simp [assertion]
  have hgid : gidFilter gid = (assertions (gid.toList.map fun g => (gidNumber, (toString g).toList))).flatten := by
    cases gid with
    | none => rfl
    | some g =>
      change '(' :: (gidNumber ++ ['=']) ++ (toString g).toList ++ [')'] = _
      simp [assertions, assertion]
  change ['(', '&'] ++ ['(', '|'] ++ (self.groupObjectClasses.map fun c =>
    "(objectClass=".toList ++ c ++ ")".toList).flatten ++
    [')'] ++ ('(' :: '|' :: '(' :: (memberUid ++ ['='])) ++ login ++
      (')' :: '(' :: (member ++ ['='])) ++ userDn ++ [')'] ++
    gidFilter gid ++ [')', ')'] = _
  rw [hclasses, hgid]
  simp [assertions, memberPairs, assertion]

theorem plain_int (n : Int) : Plain (toString n).toList := by
  intro c hc
  cases hspecial : isSpecial c with
  | false => rfl
  | true =>
    simp only [isSpecial, Bool.or_eq_true, beq_iff_eq] at hspecial
    rcases mem_int_text hc with hdigit | rfl
    · have hle := (Char.isDigit_iff_toNat.1 hdigit).1
      rcases hspecial with (((h | rfl) | rfl) | rfl) | rfl
      · rw [h] at hle
        cases hle
      all_goals cases hdigit
    · exact absurd hspecial (by decide)

theorem isDescription_objectClass : isDescription objectClass = true := by decide

theorem userPairs_fits {login : Str} (h : Plain login) : Fits (self.userPairs login) :=
  fits_cons.2 ⟨⟨isDescription_objectClass, self.userClass_plain⟩,
    fits_cons.2 ⟨⟨self.userNameAttribute_description, h⟩, fun _ h => by cases h⟩⟩

theorem classPairs_fits : Fits self.classPairs := by
  intro p hp
  obtain ⟨c, hc, rfl⟩ := List.mem_map.1 hp
  exact ⟨isDescription_objectClass, self.groupObjectClasses_plain c hc⟩

theorem memberPairs_fits {login userDn : Str} (hlogin : Plain login) (hdn : Plain userDn) (gid : Option Int) :
    Fits (memberPairs login userDn gid) := by
  have huid : isDescription memberUid = true := by decide
  have hmember : isDescription member = true := by decide
  have hgid : isDescription gidNumber = true := by decide
  refine fits_cons.2 ⟨⟨huid, hlogin⟩, fits_cons.2 ⟨⟨hmember, hdn⟩, fun p hp => ?_⟩⟩
  obtain ⟨g, -, rfl⟩ := List.mem_map.1 hp
  exact ⟨hgid, plain_int g⟩

theorem matching_iff {e : Entry} : dir.matching f e = true ↔ eval dir.rules e f = some true := by
  simp [Directory.matching]

/-- A plain login is asked for as it is. -/
theorem parse_userFilter {login : Str} (h : Plain login) : ∃ f, parse (self.userFilter login) = some f ∧
    ∀ (dir : Directory) e, dir.matching f e = true ↔ self.IsUser dir login e := by
  obtain ⟨f, hparses, hf⟩ := parses_all (by simp [userPairs]) (userPairs_fits h)
  rw [← userFilter_eq] at hparses
  refine ⟨f, parse_of_parses hparses ?_, fun dir e => ?_⟩
  · simp [userFilter_eq, userPairs, assertions, assertion]
  · rw [matching_iff, hf]
    simp [userPairs, IsUser, Directory.Has]

/-- So are a plain login and a plain DN. -/
theorem parse_groupFilter {login userDn : Str} (hlogin : Plain login) (hdn : Plain userDn) (gid : Option Int) :
    ∃ f, parse (self.groupFilter login userDn gid) = some f ∧
      ∀ (dir : Directory) e, dir.matching f e = true ↔ self.IsGroupOf dir login userDn gid e := by
  obtain ⟨f, hf, hclass⟩ := parses_any (by simp [classPairs, self.groupObjectClasses_ne]) self.classPairs_fits
  obtain ⟨g, hg, hmember⟩ := parses_any (by simp [memberPairs]) (memberPairs_fits hlogin hdn gid)
  have hparses := parses_and (.cons (hf.mono (Nat.le_max_left _ _)) (.cons (hg.mono (Nat.le_max_right _ _)) .nil))
  rw [← groupFilter_eq] at hparses
  refine ⟨_, parse_of_parses hparses ?_, fun dir e => ?_⟩
  · have hclasses := length_assertions self.classPairs
    have hmembers := length_assertions (memberPairs login userDn gid)
    simp only [groupFilter_eq, List.length_cons, List.length_append, List.length_nil,
      List.flatten_cons, List.flatten_nil]
    omega
  · rw [matching_iff, eval_and_true]
    simp [hclass, hmember, classPairs, memberPairs, IsGroupOf, Directory.Has]

/-! ## Texts with reserved characters -/

/-- A directory of one entry, in every base. -/
def oneEntry (e : Entry) : Directory := ⟨exactRules, fun _ => some [e]⟩

theorem mem_under_oneEntry {e e' : Entry} {bases : List Str} (hne : bases ≠ []) :
    e' ∈ (oneEntry e).under bases ↔ e' = e := by
  obtain ⟨base, bases, rfl⟩ := List.exists_cons_of_ne_nil hne
  rw [Directory.mem_under]
  simp [oneEntry]

theorem has_oneEntry {e e' : Entry} {attr value : Str} : (oneEntry e).Has e' attr value ↔
    utf8 value ∈ e'.values attr := by
  simp [Directory.Has, Holds, oneEntry, exactRules]

section Twins

variable (self) (login userDn : Str) (gid : Option Int)

/-- A user with one value under the user name attribute. -/
def userTwin (v : Octets) : Entry := holding [] self.userNameAttribute v fun _ => [utf8 self.userClass]

/-- In the places of the user filter but the login, nothing asks for the user name attribute. -/
theorem userFilter_blind {f : Filter} (hparse : parse (self.userFilter login) = some f) (hspecial : ¬ Plain login) :
    (oneEntry (self.userTwin (utf8 login))).matching f (self.userTwin (utf8 login)) =
      (oneEntry (self.userTwin (utf8 login ++ [0]))).matching f (self.userTwin (utf8 login ++ [0])) := by
  have htext : self.userFilter login = ('(' :: '&' :: ((assertions [(objectClass, self.userClass)]).flatten ++ [])) ++
      '(' :: ((self.userNameAttribute ++ '=' :: login) ++ ')' :: [')']) := by
    rw [userFilter_eq]
    simp [assertions, userPairs, assertion]
  have hfits : Fits [(objectClass, self.userClass)] := fun p hp => @userPairs_fits self []
    (fun _ h => by cases h) p (List.mem_cons.2 (.inl (List.mem_singleton.1 hp)))
  rw [htext] at hparse
  have hsame := eval_same_of_special hparse self.userNameAttribute_description
    (unnamed_template (by simp) hfits (by simpa using self.userNameAttribute_ne.symm) unnamed_nil rfl (by decide))
    ((unnamed_cons rfl).2 unnamed_nil) hspecial [] fun _ => [utf8 self.userClass]
  simp only [Directory.matching]
  exact congrArg (fun result => decide (result = some true)) hsame

/-- **The login selects itself** in every directory exactly when it holds no reserved character. -/
theorem lookupExact_iff (hlookup : self.lookupUserDn = true) : (∀ dir, self.LookupExact dir login) ↔ Plain login := by
  constructor
  · intro hexact
    by_contra hspecial
    have hne : self.iterUserBases ≠ [] := iterUserBases_ne
    have hself : self.lookup (oneEntry (self.userTwin (utf8 login))).server login = .ok [] := by
      refine (hexact _ []).2 ⟨⟨_, (mem_under_oneEntry hne).2 rfl, ?_, rfl⟩, fun e he _ => ?_⟩
      · simp [IsUser, has_oneEntry, userTwin, holding, self.userNameAttribute_ne.symm]
      · rw [(mem_under_oneEntry hne).1 he]
        rfl
    obtain ⟨f, hparse, ⟨e, he, hmatch, -⟩, -⟩ := (lookup_ok hlookup).1 hself
    rw [(mem_under_oneEntry hne).1 he, userFilter_blind self login hparse hspecial] at hmatch
    have hother : self.lookup (oneEntry (self.userTwin (utf8 login ++ [0]))).server login = .ok [] := by
      refine (lookup_ok hlookup).2 ⟨f, hparse, ⟨_, (mem_under_oneEntry hne).2 rfl, hmatch, rfl⟩, fun e he _ => ?_⟩
      rw [(mem_under_oneEntry hne).1 he]
      rfl
    obtain ⟨⟨e, he, huser, -⟩, -⟩ := (hexact _ _).1 hother
    rw [(mem_under_oneEntry hne).1 he] at huser
    simp [IsUser, has_oneEntry, userTwin, holding] at huser
  · intro hplain dir dn
    obtain ⟨f, hparse, hf⟩ := parse_userFilter hplain
    rw [lookup_ok hlookup, hparse]
    simp only [Option.some.injEq, exists_eq_left', hf]

/-- A text that is longer than those a group filter compares with. -/
def filler : Str := login ++ userDn ++ (gid.map fun g => (toString g).toList).getD [] ++ ['g']

/-- A group with one member DN. -/
def groupTwin (v : Octets) : Entry :=
  holding [] member v fun attr =>
    if attr = objectClass then [utf8 (self.groupObjectClasses.head self.groupObjectClasses_ne)]
    else [utf8 (filler login userDn gid)]

variable {self login userDn gid}

theorem decode_utf8 (s : Str) : decode (utf8 s) = some s := by
  have hencode : (utf8 s).toByteArray = s.utf8Encode := rfl
  rw [decode, hencode, List.utf8Decode?_utf8Encode]
  rfl

/-- Whatever attribute names the groups, the twins have a name. -/
theorem groupTwin_hasName (s : Str) : ∃ name, self.HasName (self.groupTwin login userDn gid (utf8 s)) name := by
  have hvalue : ∀ attr, ∃ name, (self.groupTwin login userDn gid (utf8 s)).values attr = [utf8 name] := by
    intro attr
    simp only [groupTwin, holding]
    split
    · exact ⟨_, rfl⟩
    · split
      · exact ⟨_, rfl⟩
      · exact ⟨_, rfl⟩
  obtain ⟨name, hname⟩ := hvalue self.groupNameAttribute
  exact ⟨name, by rw [HasName, hname]; exact decode_utf8 name⟩

theorem utf8_filler_ne : utf8 login ≠ utf8 (filler login userDn gid) ∧
    ∀ g ∈ gid, utf8 (toString g).toList ≠ utf8 (filler login userDn gid) := by
  constructor
  · intro h
    have hlength := congrArg List.length h
    simp only [filler, utf8_append, List.length_append, length_utf8_cons, utf8_nil, List.length_nil] at hlength
    have hpos := ('g').utf8Size_pos
    omega
  · rintro g hg h
    obtain rfl : gid = some g := hg
    have hlength := congrArg List.length h
    simp only [filler, Option.map_some, Option.getD_some, utf8_append, List.length_append, length_utf8_cons, utf8_nil,
      List.length_nil] at hlength
    have hpos := ('g').utf8Size_pos
    omega

theorem groupTwin_isGroupOf {e : Entry} {v : Octets} :
    self.IsGroupOf (oneEntry e) login userDn gid (self.groupTwin login userDn gid v) ↔ utf8 userDn = v := by
  have hclass : objectClass ≠ member := by decide
  have huid : memberUid ≠ member ∧ memberUid ≠ objectClass := by decide
  have hgid : gidNumber ≠ member ∧ gidNumber ≠ objectClass := by decide
  obtain ⟨hlogin, hnumber⟩ := utf8_filler_ne
  have hvalues : (self.groupTwin login userDn gid v).values member = [v] ∧
      (self.groupTwin login userDn gid v).values objectClass =
        [utf8 (self.groupObjectClasses.head self.groupObjectClasses_ne)] ∧
      (self.groupTwin login userDn gid v).values memberUid = [utf8 (filler login userDn gid)] ∧
      (self.groupTwin login userDn gid v).values gidNumber = [utf8 (filler login userDn gid)] := by
    simp [groupTwin, holding, hclass, huid, hgid]
  simp only [IsGroupOf, has_oneEntry, hvalues, List.mem_singleton]
  constructor
  · rintro ⟨-, h | h | ⟨g, hg, h⟩⟩
    · exact absurd h hlogin
    · exact h
    · exact absurd h (hnumber g hg)
  · intro h
    exact ⟨⟨_, List.head_mem _, rfl⟩, .inr (.inl h)⟩

theorem groupFilter_blind {f : Filter} (hparse : parse (self.groupFilter login userDn gid) = some f)
    (hlogin : Plain login) (hspecial : ¬ Plain userDn) :
    (oneEntry (self.groupTwin login userDn gid (utf8 userDn))).matching f
      (self.groupTwin login userDn gid (utf8 userDn)) =
      (oneEntry (self.groupTwin login userDn gid (utf8 userDn ++ [0]))).matching f
        (self.groupTwin login userDn gid (utf8 userDn ++ [0])) := by
  have hfits : Fits (memberPairs login [] gid) := memberPairs_fits hlogin (fun _ h => by cases h) gid
  obtain ⟨huid, hmember⟩ := fits_cons.1 hfits
  obtain ⟨hdescription, hgid⟩ := fits_cons.1 hmember
  have hne : memberUid ≠ member ∧ gidNumber ≠ member ∧ objectClass ≠ member := by decide
  have htext : self.groupFilter login userDn gid =
      ('(' :: '&' :: '(' :: '|' :: ((assertions self.classPairs).flatten ++
        ')' :: '(' :: '|' :: ((assertions [(memberUid, login)]).flatten ++ []))) ++
      '(' :: ((member ++ '=' :: userDn) ++ ')' ::
        ((assertions (gid.toList.map fun g => (gidNumber, (toString g).toList))).flatten ++ [')', ')'])) := by
    rw [groupFilter_eq]
    simp [assertions, memberPairs, assertion]
  rw [htext] at hparse
  have hsame := eval_same_of_special hparse hdescription.1 ?_ ?_ hspecial []
    fun attr => if attr = objectClass then [utf8 (self.groupObjectClasses.head self.groupObjectClasses_ne)]
      else [utf8 (filler login userDn gid)]
  · simp only [Directory.matching]
    exact congrArg (fun result => decide (result = some true)) hsame
  · have hclasses : self.classPairs ≠ [] := by simp [classPairs, self.groupObjectClasses_ne]
    have hone : Fits [(memberUid, login)] := fits_cons.2 ⟨huid, fun _ h => by cases h⟩
    rw [unnamed_cons rfl]
    refine unnamed_operator rfl (unnamed_template hclasses classPairs_fits ?_ ?_ rfl (by decide)) rfl (by decide)
    · intro p hp
      obtain ⟨c, -, rfl⟩ := List.mem_map.1 hp
      exact hne.2.2
    · rw [unnamed_cons rfl]
      exact unnamed_template (by simp) hone (by simpa using hne.1) unnamed_nil rfl (by decide)
  · refine unnamed_assertions hgid (fun p hp => ?_) ((unnamed_cons rfl).2 ((unnamed_cons rfl).2 unnamed_nil))
    obtain ⟨g, -, rfl⟩ := List.mem_map.1 hp
    exact hne.2.1

/-- The names of the groups of one entry that is a group. -/
theorem names_oneEntry {e : Entry} {name : Str} (hname : self.HasName e name) {P : Entry → Prop} (hP : P e) :
    (∃ base ∈ self.iterGroupBases, (oneEntry e).subtree base ≠ none) ∧
      (∀ e' ∈ (oneEntry e).under self.iterGroupBases, P e' → ∃ name, self.HasName e' name) ∧
      [name].Pairwise (· < ·) ∧
      ∀ n, n ∈ [name] ↔ ∃ e' ∈ (oneEntry e).under self.iterGroupBases, P e' ∧ self.HasName e' n := by
  have hne : self.iterGroupBases ≠ [] := iterGroupBases_ne
  obtain ⟨base, hbase⟩ := List.exists_mem_of_ne_nil _ hne
  refine ⟨⟨base, hbase, by simp [oneEntry]⟩, fun e' he _ => ?_, List.pairwise_singleton _ _, fun n => ?_⟩
  · rw [(mem_under_oneEntry hne).1 he]
    exact ⟨name, hname⟩
  · rw [List.mem_singleton]
    constructor
    · rintro rfl
      exact ⟨e, (mem_under_oneEntry hne).2 rfl, hP, hname⟩
    · rintro ⟨e', he, -, hn⟩
      rw [(mem_under_oneEntry hne).1 he] at hn
      exact Option.some.inj (hn.symm.trans hname)

/-- **The DN selects itself** too, next to a plain login. -/
theorem groupsExact_iff (hlogin : Plain login) : (∀ dir, self.GroupsExact dir login userDn gid) ↔ Plain userDn := by
  constructor
  · intro hexact
    by_contra hspecial
    have hne : self.iterGroupBases ≠ [] := iterGroupBases_ne
    have hzero : utf8 userDn ++ [0] = utf8 (userDn ++ [Char.ofNat 0]) := by
      rw [utf8_append]
      rfl
    obtain ⟨name, hname⟩ := groupTwin_hasName userDn
    obtain ⟨other, hother⟩ := groupTwin_hasName
      (userDn ++ [Char.ofNat 0])
    rw [← hzero] at hother
    -- the group of that very DN is found, so the filter is read, and it takes its twin for one too
    obtain ⟨f, hparse, -, -, -, hmem⟩ :=
      getGroups_ok.1 ((hexact _ _).2 (names_oneEntry hname (groupTwin_isGroupOf.2 rfl)))
    obtain ⟨e, he, hmatch, -⟩ := (hmem name).1 (List.mem_singleton_self _)
    rw [(mem_under_oneEntry hne).1 he, groupFilter_blind hparse hlogin hspecial] at hmatch
    have htwin := getGroups_ok.2 ⟨f, hparse, names_oneEntry hother hmatch⟩
    obtain ⟨e', he', hgroup, -⟩ := (((hexact _ _).1 htwin).2.2.2 other).1 (List.mem_singleton_self _)
    rw [(mem_under_oneEntry hne).1 he', groupTwin_isGroupOf] at hgroup
    simp at hgroup
  · intro hplain dir names
    obtain ⟨f, hparse, hf⟩ := parse_groupFilter hlogin hplain gid
    rw [getGroups_ok, hparse]
    simp only [Option.some.injEq, exists_eq_left', hf]

/-- **No login or DN selects another identity**, whatever the directory holds, exactly when both are without the
characters a filter reserves. -/
theorem identities_iff (hlookup : self.lookupUserDn = true) :
    (∀ dir, self.LookupExact dir login ∧ self.GroupsExact dir login userDn gid) ↔ Plain login ∧ Plain userDn := by
  rw [forall_and, lookupExact_iff self login hlookup]
  exact and_congr_right fun hlogin => groupsExact_iff hlogin

end Twins

/-- A directory of accounts and groups. -/
def posix : Authentifier where
  uri := "ldap://localhost".toList
  lookupUserDn := true
  userBase := "ou=people,dc=example,dc=org".toList
  groupBase := "ou=groups,dc=example,dc=org".toList
  userBases := ["ou=people,dc=example,dc=org".toList]
  groupBases := ["ou=groups,dc=example,dc=org".toList]
  userClass := "posixAccount".toList
  userNameAttribute := "uid".toList
  groupNameAttribute := "cn".toList
  groupObjectClasses := ["posixGroup".toList]
  userClass_plain := by decide
  userNameAttribute_description := by decide
  userNameAttribute_ne := by decide
  groupObjectClasses_ne := by simp
  groupObjectClasses_plain := by
    rw [List.forall_mem_singleton]
    decide

theorem identities_iff_alice : posix.lookupUserDn = true ∧
    ∀ dir, posix.LookupExact dir "alice".toList ∧
      posix.GroupsExact dir "alice".toList "uid=alice,ou=people,dc=example,dc=org".toList (some 1000) :=
  ⟨rfl, (identities_iff rfl).2 ⟨by decide, by decide⟩⟩

/-- One account. -/
def alice : Entry :=
  holding "uid=alice,ou=people,dc=example,dc=org".toList "uid".toList (utf8 "alice".toList)
    fun attr => if attr = objectClass then [utf8 "posixAccount".toList] else []

/-- Nobody has the login `*`, and the lookup finds somebody. -/
theorem wildcard_logs_in : posix.lookup (oneEntry alice).server "*".toList = .ok alice.dn ∧
    ¬ posix.LookupExact (oneEntry alice) "*".toList := by
  have hfound : posix.lookup (oneEntry alice).server "*".toList = .ok alice.dn := by decide
  refine ⟨hfound, fun hexact => ?_⟩
  obtain ⟨⟨e, he, huser, -⟩, -⟩ := (hexact _).1 hfound
  rw [(mem_under_oneEntry iterUserBases_ne).1 he, IsUser, has_oneEntry, has_oneEntry] at huser
  exact absurd huser.2 (by decide)

end Authentifier

end SlurmWeb.Ldap
