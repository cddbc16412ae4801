import SlurmWeb.Jobs.Writer

/-!
# A flushed chunk in the database (slurmweb/persistence/jobs_store.py)

A chunk is written at once or, when that fails, row by row. Here the database is one that refuses rows one
by one, whatever the others; the statements are transactions on its users and its table.

| here | there |
| --- | --- |
| `Database.insertUsers` | the `INSERT` of `_ensure_users` (:1529) |
| `Database.write` | the `try` blocks of `_flush_chunk` (:1579, :1605) |
| `Database.flushChunk` | `_flush_chunk` (:1575) |

A sequence of ids is not rolled back. The times of the transactions (`NOW()`) are left out.

* `flushChunk_run` — the database as an environment of `flushChunk`.
* `flush_chunk_refines` — the table as if the accepted rows had been upserted one by one.
-/

namespace SlurmWeb.Jobs

open Strings Py

variable {F : Type} [Python F] [DecidableEq F]

/-! ## The database -/

structure Database (F : Type) [Python F] [DecidableEq F] where
  /-- The ids of the users by their names. -/
  users : Dict Str Int
  /-- The next id. -/
  serial : Int
  table : Table F

/-- `INSERT .. ON CONFLICT (username) DO NOTHING`: an id is taken from the sequence in any case. -/
def Database.insertUser (db : Database F) (name : Str) : Database F :=
  { db with
    users := if (db.users.get name).isSome then db.users else db.users.set name db.serial
    serial := db.serial + 1 }

/-- The `INSERT` of `_ensure_users` (:1529), in the order of the names. -/
def Database.insertUsers (db : Database F) (names : List Str) : Database F :=
  (sortedSet names).foldl Database.insertUser db

/-- `mapping` of `_ensure_users` (:1543): the users that were asked for. -/
def mapping (users : Dict Str Int) (names : List Str) (name : Str) : Option Int :=
  if name ∈ names then users.get name else none

/-- A job id that is a number, and a time: the columns of the key are not null. -/
def properKey : JobKey F → Bool
  | (.int _, some _) => true
  | _ => false

section
-- the rows that violate a constraint of the table, whoever their users are
variable (rejects : Row F → Bool)

def refused (r : KeyedRow F) : Bool := !properKey r.key || rejects { r.row with userId := none }

/-- What the database answers to a transaction; a statement does not update a row twice. -/
def Database.env (db : Database F) (rows : List (KeyedRow F)) : WriteEnv where
  users := some (mapping (db.insertUsers ((userNames rows).getD [])).users ((userNames rows).getD []))
  execute := rows.all (fun r => !refused rejects r) && decide (rows.map KeyedRow.key).Nodup
  commit := .done

/-- A transaction: it is rolled back when it fails. -/
def Database.write (db : Database F) (rows : List (KeyedRow F)) : Attempt F × Database F :=
  let inserted := db.insertUsers ((userNames rows).getD [])
  let attempt := writeRows (db.env rejects rows) rows
  (attempt, if attempt.ok then { inserted with table := attempt.committed.foldl Table.upsert db.table }
    else { db with serial := inserted.serial })

def Database.writeRowByRow (db : Database F) : List (KeyedRow F) → Database F × List (KeyedRow F)
  | [] => (db, [])
  | r :: rows =>
    let attempt := (db.write rejects [r]).1
    let rest := Database.writeRowByRow (db.write rejects [r]).2 rows
    (rest.1, if attempt.ok then rest.2 else attempt.rows ++ rest.2)

/-- `_flush_chunk` (:1575) -/
def Database.flushChunk (db : Database F) (chunk : List (KeyedRow F)) : Database F × List (KeyedRow F) :=
  let bulk := (db.write rejects chunk).1
  if bulk.ok then ((db.write rejects chunk).2, []) else (db.write rejects chunk).2.writeRowByRow rejects bulk.rows

end

/-! ## The database as an environment -/

variable {rejects : Row F → Bool}

theorem write_table (db : Database F) (rows : List (KeyedRow F)) :
    (db.write rejects rows).2.table = (db.write rejects rows).1.committed.foldl Table.upsert db.table := by
  unfold Database.write
  dsimp only
  split
  · rfl
  · rename_i hfailed
    have hnothing : (writeRows (db.env rejects rows) rows).committed = [] := by
      unfold writeRows at hfailed ⊢
      dsimp only at hfailed ⊢
      split at hfailed
      · rw [if_pos ‹_›]
      · rw [if_neg ‹_›]
        cases hupserts : (ensureUsers (db.env rejects rows).users rows).1.mapM upsert with
        | error e => rfl
        | ok upserts =>
          rw [hupserts] at hfailed
          dsimp only at hfailed ⊢
          split at hfailed
          · rw [if_pos ‹_›]
          · exact absurd rfl hfailed
    rw [hnothing]
    rfl

omit [DecidableEq F] in
theorem writeRowByRow_congr {envs envs' : Nat → WriteEnv} : ∀ {rows : List (KeyedRow F)} {i : Nat},
    (∀ j, i ≤ j → envs j = envs' j) → Jobs.writeRowByRow envs i rows = Jobs.writeRowByRow envs' i rows
  | [], _, _ => rfl
  | r :: rows, i, h => by
    rw [Jobs.writeRowByRow, Jobs.writeRowByRow, h i le_rfl,
      @writeRowByRow_congr _ _ rows (i + 1) fun j hj => h j (by omega)]

theorem writeRowByRow_run (db : Database F) (rows : List (KeyedRow F)) (i : Nat) : ∃ envs : Nat → WriteEnv,
    (Jobs.writeRowByRow envs i rows).2 = (db.writeRowByRow rejects rows).2 ∧
      (db.writeRowByRow rejects rows).1.table = (Jobs.writeRowByRow envs i rows).1.foldl Table.upsert db.table := by
  induction rows generalizing db i with
  | nil => exact ⟨fun _ => db.env rejects [], rfl, rfl⟩
  | cons r rows ih =>
    obtain ⟨envs, hfailed, htable⟩ := ih (db.write rejects [r]).2 (i + 1)
    let envs' : Nat → WriteEnv := fun j => if j = i then db.env rejects [r] else envs j
    have hrest : Jobs.writeRowByRow envs' (i + 1) rows = Jobs.writeRowByRow envs (i + 1) rows :=
      writeRowByRow_congr fun j hj => if_neg (by omega)
    have hfirst : envs' i = db.env rejects [r] := if_pos rfl
    have hattempt : writeRows (db.env rejects [r]) [r] = (db.write rejects [r]).1 := rfl
    refine ⟨envs', ?_, ?_⟩
    · rw [Jobs.writeRowByRow, Database.writeRowByRow]
      dsimp only
      rw [hrest, hfirst, hattempt, hfailed]
    · rw [Jobs.writeRowByRow, Database.writeRowByRow]
      dsimp only
      rw [hrest, hfirst, hattempt, List.foldl_append, ← write_table, htable]

/-- **The database as an environment of `flushChunk`.** -/
theorem flushChunk_run (db : Database F) (chunk : List (KeyedRow F)) : ∃ env committed, env.connection = true ∧
    Jobs.flushChunk env chunk = some (committed, (db.flushChunk rejects chunk).2) ∧
      (db.flushChunk rejects chunk).1.table = committed.foldl Table.upsert db.table := by
  obtain ⟨envs, hfailed, htable⟩ := @writeRowByRow_run F _ _ rejects (db.write rejects chunk).2
    (db.write rejects chunk).1.rows 0
  have hbulk : writeRows (db.env rejects chunk) chunk = (db.write rejects chunk).1 := rfl
  by_cases hok : (db.write rejects chunk).1.ok = true
  · refine ⟨⟨true, db.env rejects chunk, envs⟩, (db.write rejects chunk).1.committed, rfl, ?_, ?_⟩
    · rw [Jobs.flushChunk, Database.flushChunk]
      dsimp only
      rw [hbulk, if_pos hok, if_pos hok]
      rfl
    · rw [Database.flushChunk, if_pos hok]
      exact write_table db chunk
  · refine ⟨⟨true, db.env rejects chunk, envs⟩, (db.write rejects chunk).1.committed ++
      (Jobs.writeRowByRow envs 0 (db.write rejects chunk).1.rows).1, rfl, ?_, ?_⟩
    · rw [Jobs.flushChunk, Database.flushChunk]
      dsimp only
      rw [hbulk, if_neg hok, if_neg hok, hfailed]
      rfl
    · rw [Database.flushChunk, if_neg hok, htable, write_table, List.foldl_append]

/-! ## Accepted rows -/

/-- A user name that can be looked up: a text, or none. -/
def nameOk (r : KeyedRow F) : Bool :=
  match r.row.userName with
  | .str _ => true
  | name => !name.truthy

/-- A row that is written when it is alone. -/
def accepted (rejects : Row F → Bool) (r : KeyedRow F) : Bool :=
  nameOk r && (prepareDbRow r.row).isOk && !refused rejects r

/-- The id of the user with this name, if there is a name. -/
def ownUser (users : Dict Str Int) : Value F → Option Int
  | .str name => if name = [] then none else users.get name
  | _ => none

def ownRow (users : Dict Str Int) (r : KeyedRow F) : KeyedRow F := r.withUser (ownUser users r.row.userName)

/-- A row with the id of its own user, upserted by itself. -/
def Table.write (users : Dict Str Int) (t : Table F) (r : KeyedRow F) : Table F :=
  match Jobs.upsert (ownRow users r) with
  | .ok u => t.upsert u
  | .error _ => t

/-- A `user_id` is only set together with a `user_name`. -/
def Named (r : KeyedRow F) : Prop := r.row.userName.truthy = false → r.row.userId = none

/-! ## Users -/

theorem insertUser_get (db : Database F) (added name : Str) : (db.insertUser added).users.get name =
    if added = name ∧ (db.users.get name).isSome = false then some db.serial else db.users.get name := by
  rw [Database.insertUser]
  dsimp only
  by_cases hadded : (db.users.get added).isSome = true
  · rw [if_pos hadded, if_neg]
    rintro ⟨rfl, hnone⟩
    rw [hadded] at hnone
    cases hnone
  · rw [if_neg hadded, Dict.get_set]
    by_cases hname : added = name
    · subst hname
      rw [if_pos rfl, if_pos ⟨rfl, Bool.eq_false_iff.2 hadded⟩]
    · rw [if_neg hname, if_neg fun h => hname h.1]

theorem foldl_insertUser (names : List Str) (db : Database F) :
    (∀ name id, db.users.get name = some id → (names.foldl Database.insertUser db).users.get name = some id) ∧
    (∀ name, ((names.foldl Database.insertUser db).users.get name).isSome = true ↔
      (db.users.get name).isSome = true ∨ name ∈ names) ∧
    (names.foldl Database.insertUser db).table = db.table := by
  induction names generalizing db with
  | nil => simp
  | cons added names ih =>
    obtain ⟨hkept, hnew, htable⟩ := ih (db.insertUser added)
    refine ⟨fun name id hid => hkept name id ?_, fun name => ?_, htable⟩
    · rw [insertUser_get, if_neg, hid]
      rw [hid]
      simp
    · rw [List.foldl_cons, hnew, insertUser_get, List.mem_cons]
      by_cases hname : added = name
      · subst hname
        cases hget : db.users.get added <;> simp
      · simp [hname, Ne.symm hname]

theorem insertUsers_kept (db : Database F) {names : List Str} {name : Str} {id : Int}
    (h : db.users.get name = some id) :
    (db.insertUsers names).users.get name = some id := (foldl_insertUser _ db).1 name id h

theorem insertUsers_isSome (db : Database F) {names : List Str} {name : Str} :
    ((db.insertUsers names).users.get name).isSome = true ↔ (db.users.get name).isSome = true ∨ name ∈ names := by
  rw [Database.insertUsers, (foldl_insertUser _ db).2.1, mem_sortedSet]

omit [DecidableEq F] in
theorem mem_userNames : ∀ {rows : List (KeyedRow F)} {names : List Str}, userNames rows = some names →
    ∀ name, name ∈ names ↔ name ≠ [] ∧ ∃ r ∈ rows, r.row.userName = .str name
  | [], names, h, name => by
    cases h
    simp
  | r :: rows, names, h, name => by
    rw [userNames] at h
    by_cases htruthy : r.row.userName.truthy = true
    · rw [if_pos htruthy] at h
      cases hname : r.row.userName with
      | str first =>
        rw [hname] at h htruthy
        obtain ⟨rest, hrest, rfl⟩ := Option.map_eq_some_iff.1 h
        have hfirst : first ≠ [] := by
          rintro rfl
          cases htruthy
        rw [List.mem_cons, mem_userNames hrest]
        constructor
        · rintro (rfl | ⟨hne, r', hr', hr'name⟩)
          · exact ⟨hfirst, r, List.mem_cons_self, hname⟩
          · exact ⟨hne, r', List.mem_cons_of_mem _ hr', hr'name⟩
        · rintro ⟨hne, r', hr', hr'name⟩
          rcases List.mem_cons.1 hr' with rfl | hr'
          · rw [hname] at hr'name
            cases hr'name
            exact .inl rfl
          · exact .inr ⟨hne, r', hr', hr'name⟩
      | _ => rw [hname] at h; cases h
    · rw [if_neg htruthy] at h
      rw [mem_userNames h]
      have hother : ∀ name : Str, name ≠ [] → r.row.userName ≠ .str name := by
        intro name hne hname
        rw [hname] at htruthy
        cases name with
        | nil => exact hne rfl
        | cons c s => exact htruthy rfl
      refine and_congr_right fun hne => ⟨?_, ?_⟩
      · rintro ⟨r', hr', hname⟩
        exact ⟨r', List.mem_cons_of_mem _ hr', hname⟩
      · rintro ⟨r', hr', hname⟩
        rcases List.mem_cons.1 hr' with rfl | hr'
        · exact absurd hname (hother name hne)
        · exact ⟨r', hr', hname⟩

omit [DecidableEq F] in
/-- A row whose user name is empty or of another type has no user of its own. -/
theorem ownRow_of_not_truthy {r : KeyedRow F} (h : r.row.userName.truthy = false) (hnamed : Named r)
    (users : Dict Str Int) : ownRow users r = r := by
  have hown : ownUser users r.row.userName = none := by
    cases hname : r.row.userName with
    | str name =>
      rw [hname] at h
      cases name with
      | nil => rfl
      | cons c s => cases h
    | _ => rfl
  rw [ownRow, hown, ← hnamed h]
  rfl

omit [DecidableEq F] in
theorem userNames_nil : ∀ {rows : List (KeyedRow F)}, userNames rows = some [] → ∀ r ∈ rows,
    r.row.userName.truthy = false
  | [], _, _, hr => by cases hr
  | r :: rows, h, r', hr' => by
    rw [userNames] at h
    by_cases htruthy : r.row.userName.truthy = true
    · rw [if_pos htruthy] at h
      cases hname : r.row.userName with
      | str first =>
        rw [hname] at h
        obtain ⟨rest, -, hrest⟩ := Option.map_eq_some_iff.1 h
        cases hrest
      | _ => rw [hname] at h; cases h
    · rw [if_neg htruthy] at h
      rcases List.mem_cons.1 hr' with rfl | hr'
      · exact Bool.eq_false_iff.2 htruthy
      · exact userNames_nil h r' hr'

omit [DecidableEq F] in
theorem userNames_ok : ∀ {rows : List (KeyedRow F)} {names : List Str}, userNames rows = some names →
    ∀ r ∈ rows, nameOk r = true
  | [], _, _, _, hr => by cases hr
  | r :: rows, names, h, r', hr' => by
    rw [userNames] at h
    by_cases htruthy : r.row.userName.truthy = true
    · rw [if_pos htruthy] at h
      cases hname : r.row.userName with
      | str first =>
        rw [hname] at h
        obtain ⟨rest, hrest, -⟩ := Option.map_eq_some_iff.1 h
        rcases List.mem_cons.1 hr' with rfl | hr'
        · rw [nameOk, hname]
        · exact userNames_ok hrest r' hr'
      | _ => rw [hname] at h; cases h
    · rw [if_neg htruthy] at h
      rcases List.mem_cons.1 hr' with rfl | hr'
      · unfold nameOk
        split
        · rfl
        · rw [Bool.eq_false_iff.2 htruthy]
          rfl
      · exact userNames_ok h r' hr'

/-! ## One transaction -/

omit [DecidableEq F] in
theorem assignUsers_ok {users : Dict Str Int} {m : Str → Option Int} : ∀ {rows rows' : List (KeyedRow F)},
    (∀ r ∈ rows, ∀ name, r.row.userName = .str name → m name = ownUser users r.row.userName) →
    assignUsers m rows = (rows', true) → rows' = rows.map (ownRow users)
  | [], _, _, h => by
    cases h
    rfl
  | r :: rows, rows', hm, h => by
    have hrest : ∀ rest, assignUsers m rows = (rest, true) → rest = rows.map (ownRow users) := fun rest =>
      assignUsers_ok fun r' hr' => hm r' (List.mem_cons_of_mem _ hr')
    have hpair : ∀ own : KeyedRow F, own = ownRow users r →
        (own :: (assignUsers m rows).1, (assignUsers m rows).2) = (rows', true) →
        rows' = (r :: rows).map (ownRow users) := by
      intro own hown hsame
      obtain ⟨rfl, htrue⟩ := Prod.mk.inj hsame
      rw [List.map_cons, hown, ← hrest _ (Prod.ext rfl htrue)]
    unfold assignUsers at h
    cases hname : r.row.userName with
    | list items =>
      rw [hname] at h
      cases h
    | dict items =>
      rw [hname] at h
      cases h
    | str name =>
      rw [hname] at h
      refine hpair _ ?_ h
      rw [ownRow, ← hm r List.mem_cons_self name hname]
    | _ =>
      rw [hname] at h
      refine hpair _ ?_ h
      rw [ownRow, hname]
      rfl

/-- The rows of a transaction that goes on have the ids of their own users. -/
theorem ensureUsers_ok (db : Database F) {rows rows' : List (KeyedRow F)} (hnamed : ∀ r ∈ rows, Named r)
    (h : ensureUsers (db.env rejects rows).users rows = (rows', true)) :
    rows' = rows.map (ownRow (db.insertUsers ((userNames rows).getD [])).users) := by
  unfold ensureUsers at h
  cases hnames : userNames rows with
  | none =>
    rw [hnames] at h
    cases h
  | some names =>
    rw [hnames] at h
    cases names with
    | nil =>
      obtain ⟨rfl, -⟩ := Prod.mk.inj h
      refine (List.map_id rows).symm.trans (List.map_congr_left fun r hr => ?_)
      exact (ownRow_of_not_truthy (userNames_nil hnames r hr) (hnamed r hr) _).symm
    | cons first rest =>
      refine assignUsers_ok (fun r hr name hname => ?_) h
      rw [hname, ownUser, mapping, hnames, Option.getD_some]
      have hmem := mem_userNames hnames name
      by_cases hnil : name = []
      · rw [if_pos hnil, if_neg fun hin => (hmem.1 hin).1 hnil]
      · rw [if_neg hnil, if_pos (hmem.2 ⟨hnil, r, hr, hname⟩)]

omit [DecidableEq F] in
theorem writeRows_ok {env : WriteEnv} {rows : List (KeyedRow F)} (hcommit : env.commit = .done) :
    (writeRows env rows).ok = true ↔ ∃ rows' upserts, ensureUsers env.users rows = (rows', true) ∧
      rows'.mapM upsert = .ok upserts ∧ env.execute = true ∧ writeRows env rows = ⟨rows', upserts, true⟩ := by
  constructor
  · intro hok
    unfold writeRows at hok ⊢
    cases hensure : ensureUsers env.users rows with
    | mk rows' ok =>
      rw [hensure] at hok
      dsimp only at hok ⊢
      cases ok with
      | false => cases hok
      | true =>
        cases hupserts : rows'.mapM upsert with
        | error e =>
          rw [hupserts] at hok
          cases hok
        | ok upserts =>
          rw [hupserts, hcommit] at hok
          cases hexecute : env.execute with
          | false =>
            rw [hexecute] at hok
            cases hok
          | true =>
            refine ⟨rows', upserts, rfl, hupserts, rfl, ?_⟩
            rw [hcommit]
            rfl
  · rintro ⟨rows', upserts, -, -, -, hwrite⟩
    rw [hwrite]

omit [DecidableEq F] in
theorem prepareDbRow_user (row : Row F) (userId : Option Int) :
    (prepareDbRow { row with userId }).isOk = (prepareDbRow row).isOk := by
  unfold prepareDbRow
  cases roundMetric row.usedMemoryGb with
  | error e => rfl
  | ok memory => cases roundMetric row.usedCpuCoresAvg <;> rfl

omit [DecidableEq F] in
theorem upsert_ok {r : KeyedRow F} : (∃ u, upsert r = .ok u) ↔ (prepareDbRow r.row).isOk = true := by
  unfold upsert
  constructor
  · rintro ⟨u, hu⟩
    split at hu
    · rename_i hprepared
      rw [hprepared]
      rfl
    · cases hu
  · intro h
    split
    · exact ⟨_, rfl⟩
    · rename_i hprepared
      rw [hprepared] at h
      cases h

/-- **A transaction that succeeds** upserts its rows with the ids of their own users, and each is a row that
is accepted. -/
theorem write_ok (db : Database F) {rows : List (KeyedRow F)} (hnamed : ∀ r ∈ rows, Named r)
    (hok : (db.write rejects rows).1.ok = true) : (∀ r ∈ rows, accepted rejects r = true) ∧
      (db.write rejects rows).2.users = (db.insertUsers ((userNames rows).getD [])).users ∧
      (db.write rejects rows).2.table = rows.foldl (Table.write (db.write rejects rows).2.users) db.table := by
  obtain ⟨rows', upserts, hensure, hupserts, hexecute, hwrite⟩ := (writeRows_ok rfl).1 hok
  have hrows := ensureUsers_ok db hnamed hensure
  have husers : (db.write rejects rows).2.users = (db.insertUsers ((userNames rows).getD [])).users := by
    rw [Database.write]
    dsimp only
    split <;> first | rfl | exact absurd hok ‹_›
  have hpairs := Except.mapM_eq_ok.1 hupserts
  rw [hrows, List.forall₂_map_left_iff] at hpairs
  refine ⟨fun r hr => ?_, husers, ?_⟩
  · obtain ⟨u, -, hu⟩ := hpairs.exists_right r hr
    have hprepared := upsert_ok.1 ⟨u, hu⟩
    have hall : rows.all (fun r => !refused rejects r) = true := (Bool.and_eq_true_iff.1 hexecute).1
    have hrefused := List.all_eq_true.1 hall r hr
    have hname : nameOk r = true := by
      unfold ensureUsers at hensure
      cases hnames : userNames rows with
      | none =>
        rw [hnames] at hensure
        cases hensure
      | some names => exact userNames_ok hnames r hr
    rw [accepted, hname, hrefused, ← prepareDbRow_user r.row
      (ownUser (db.insertUsers ((userNames rows).getD [])).users r.row.userName)]
    exact (Bool.and_true _).trans ((Bool.true_and _).trans hprepared)
  · have hcommitted : (db.write rejects rows).1.committed = upserts := congrArg Attempt.committed hwrite
    rw [write_table, hcommitted, husers]
    clear hupserts hensure hexecute hwrite hcommitted hrows hok husers hnamed
    generalize db.table = t
    generalize (db.insertUsers ((userNames rows).getD [])).users = users at hpairs ⊢
    induction hpairs generalizing t with
    | nil => rfl
    | cons hu _ ih =>
      rw [List.foldl_cons, List.foldl_cons, ih, Table.write, hu]

theorem ensureUsers_single (db : Database F) {r : KeyedRow F} (h : nameOk r = true) :
    ∃ userId, ensureUsers (db.env rejects [r]).users [r] = ([r.withUser userId], true) := by
  have hnone : r.row.userName.truthy = false → ensureUsers (db.env rejects [r]).users [r] =
      ([r.withUser r.row.userId], true) := by
    intro hfalsy
    have hnames : userNames [r] = some [] := by
      rw [userNames, hfalsy]
      rfl
    unfold ensureUsers
    rw [hnames]
    rfl
  cases hname : r.row.userName with
  | str name =>
    cases name with
    | nil => exact ⟨_, hnone (by rw [hname]; rfl)⟩
    | cons c s =>
      have hnames : userNames [r] = some [c :: s] := by
        rw [userNames, hname]
        rfl
      refine ⟨mapping (db.insertUsers [c :: s]).users [c :: s] (c :: s), ?_⟩
      unfold ensureUsers
      rw [Database.env, hnames]
      dsimp only [Option.getD_some]
      unfold assignUsers
      rw [hname]
      rfl
  | _ =>
    unfold nameOk at h
    rw [hname] at h
    exact ⟨_, hnone (by rw [hname]; simpa using h)⟩

/-- **A row alone** is written when it is accepted. -/
theorem write_single (db : Database F) {r : KeyedRow F} (h : accepted rejects r = true) :
    (db.write rejects [r]).1.ok = true := by
  rw [accepted, Bool.and_eq_true, Bool.and_eq_true] at h
  obtain ⟨⟨hname, hprepared⟩, hrefused⟩ := h
  obtain ⟨userId, hensure⟩ := @ensureUsers_single F _ _ rejects db r hname
  have hprepared' : (prepareDbRow (r.withUser userId).row).isOk = true :=
    (prepareDbRow_user r.row userId).trans hprepared
  obtain ⟨u, hu⟩ := upsert_ok.2 hprepared'
  have hupserts : [r.withUser userId].mapM upsert = .ok [u] := Except.mapM_eq_ok.2 (.cons hu .nil)
  have hexecute : (db.env rejects [r]).execute = true := by simpa [Database.env] using hrefused
  refine (writeRows_ok rfl).2 ⟨_, _, hensure, hupserts, hexecute, ?_⟩
  unfold writeRows
  rw [hensure]
  dsimp only
  rw [hupserts, hexecute]
  rfl

theorem write_failed (db : Database F) {rows : List (KeyedRow F)} (h : (db.write rejects rows).1.ok = false) :
    (db.write rejects rows).2.users = db.users ∧ (db.write rejects rows).2.table = db.table := by
  have hfailed : (writeRows (db.env rejects rows) rows).ok = false := h
  rw [Database.write]
  dsimp only
  rw [hfailed]
  exact ⟨rfl, rfl⟩

/-! ## Rows apart from their user ids -/

omit [DecidableEq F] in
theorem SameRow.userName {r r' : KeyedRow F} (h : SameRow r r') : r'.row.userName = r.row.userName := by
  obtain ⟨userId, hrow⟩ := h.row
  rw [hrow]

omit [DecidableEq F] in
theorem SameRow.accepted {r r' : KeyedRow F} (h : SameRow r r') : accepted rejects r' = accepted rejects r := by
  obtain ⟨userId, hrow⟩ := h.row
  have hname : nameOk r' = nameOk r := by
    unfold nameOk
    rw [h.userName]
  have hprepared : (prepareDbRow r'.row).isOk = (prepareDbRow r.row).isOk := by rw [hrow, prepareDbRow_user]
  have hrefused : refused rejects r' = refused rejects r := by rw [refused, refused, h.key, hrow]
  rw [Jobs.accepted, Jobs.accepted, hname, hprepared, hrefused]

omit [DecidableEq F] in
theorem SameRow.ownRow {r r' : KeyedRow F} (h : SameRow r r') (users : Dict Str Int) :
    ownRow users r' = ownRow users r := by
  obtain ⟨userId, hrow⟩ := h.row
  obtain ⟨row, origin, key, hashed⟩ := r
  obtain ⟨row', origin', key', hashed'⟩ := r'
  obtain rfl : key' = key := h.key
  obtain rfl : origin' = origin := h.origin
  obtain rfl : row' = { row with userId } := hrow
  rfl

theorem SameRow.write {r r' : KeyedRow F} (h : SameRow r r') (users : Dict Str Int) (t : Table F) :
    Table.write users t r' = Table.write users t r := by
  rw [Table.write, Table.write, h.ownRow]

omit [DecidableEq F] in
theorem writeRows_rows (env : WriteEnv) (rows : List (KeyedRow F)) :
    (writeRows env rows).rows = (ensureUsers env.users rows).1 := by
  unfold writeRows
  dsimp only
  split
  · rfl
  · cases (ensureUsers env.users rows).1.mapM upsert with
    | error e => rfl
    | ok upserts =>
      dsimp only
      split
      · rfl
      · cases env.commit <;> rfl

omit [DecidableEq F] in
theorem assignUsers_named {m : Str → Option Int} (hm : m [] = none) : ∀ {rows : List (KeyedRow F)},
    (∀ r ∈ rows, Named r) → ∀ r ∈ (assignUsers m rows).1, Named r
  | [], _, _, hr => by cases hr
  | r :: rows, hnamed, q, hq => by
    have hrest := @assignUsers_named _ hm rows fun r' hr' => hnamed r' (List.mem_cons_of_mem _ hr')
    unfold assignUsers at hq
    cases hname : r.row.userName with
    | list items =>
      rw [hname] at hq
      exact hnamed q hq
    | dict items =>
      rw [hname] at hq
      exact hnamed q hq
    | str name =>
      rw [hname] at hq
      rcases List.mem_cons.1 hq with rfl | hq
      · intro hfalsy
        have hempty : name = [] := by
          rw [KeyedRow.withUser, hname] at hfalsy
          cases name with
          | nil => rfl
          | cons c s => cases hfalsy
        rw [hempty]
        exact hm
      · exact hrest q hq
    | _ =>
      rw [hname] at hq
      rcases List.mem_cons.1 hq with rfl | hq
      · exact fun _ => rfl
      · exact hrest q hq

/-- A failed transaction leaves no user id without a name. -/
theorem write_named (db : Database F) {rows : List (KeyedRow F)} (hnamed : ∀ r ∈ rows, Named r) :
    ∀ r ∈ (db.write rejects rows).1.rows, Named r := by
  have hrows : (db.write rejects rows).1.rows = (ensureUsers (db.env rejects rows).users rows).1 := writeRows_rows ..
  rw [hrows]
  unfold ensureUsers
  cases hnames : userNames rows with
  | none => exact hnamed
  | some names =>
    cases names with
    | nil => exact hnamed
    | cons first rest =>
      refine assignUsers_named ?_ hnamed
      rw [mapping, hnames, if_neg]
      exact fun hin => ((mem_userNames hnames []).1 hin).1 rfl

theorem foldl_sameRow {users : Dict Str Int} {rows rows' : List (KeyedRow F)} (h : List.Forall₂ SameRow rows rows') :
    ∀ t, rows.foldl (Table.write users) t = rows'.foldl (Table.write users) t := by
  induction h with
  | nil => exact fun _ => rfl
  | cons hsame _ ih =>
    intro t
    rw [List.foldl_cons, List.foldl_cons, hsame.write, ih]

/-! ## Row by row -/

/-- What is left of a chunk, and the database with its accepted rows. -/
structure Flushed (rejects : Row F → Bool) (db : Database F) (rows : List (KeyedRow F)) (db' : Database F)
    (failed : List (KeyedRow F)) : Prop where
  failed : List.Forall₂ SameRow (rows.filter fun r => !accepted rejects r) failed
  kept : ∀ name id, db.users.get name = some id → db'.users.get name = some id
  added : ∀ name, (db'.users.get name).isSome = true ↔
    (db.users.get name).isSome = true ∨ name ≠ [] ∧ ∃ r ∈ rows, accepted rejects r = true ∧ r.row.userName = .str name
  table : db'.table = (rows.filter (accepted rejects)).foldl (Table.write db'.users) db.table

theorem write_flushed (db : Database F) {rows : List (KeyedRow F)} (hnamed : ∀ r ∈ rows, Named r)
    (hok : (db.write rejects rows).1.ok = true) : Flushed rejects db rows (db.write rejects rows).2 [] := by
  obtain ⟨haccepted, husers, htable⟩ := write_ok db hnamed hok
  obtain ⟨rows', -, hensure, -⟩ := (writeRows_ok rfl).1 hok
  refine ⟨?_, ?_, fun name => ?_, ?_⟩
  · have hnone : (rows.filter fun r => !accepted rejects r) = [] := List.filter_eq_nil_iff.2 fun r hr => by
      simp [haccepted r hr]
    rw [hnone]
    exact .nil
  · rw [husers]
    exact fun name id => insertUsers_kept db
  · have hnames : ∃ names, userNames rows = some names := by
      unfold ensureUsers at hensure
      cases hnames : userNames rows with
      | none =>
        rw [hnames] at hensure
        cases hensure
      | some names => exact ⟨names, rfl⟩
    obtain ⟨names, hnames⟩ := hnames
    rw [husers, insertUsers_isSome, hnames, Option.getD_some, mem_userNames hnames]
    refine or_congr_right (and_congr_right fun _ => exists_congr fun r => and_congr_right fun hr => ?_)
    rw [haccepted r hr]
    exact (and_iff_right rfl).symm
  · rw [List.filter_eq_self.2 haccepted]
    exact htable

omit [Python F] [DecidableEq F] in
/-- Users that stay give a row the same id. -/
theorem ownUser_kept {users users' : Dict Str Int}
    (hkept : ∀ name id, users.get name = some id → users'.get name = some id)
    {name : Value F} (h : ∀ s, s ≠ [] → name = .str s → (users.get s).isSome = true) :
      ownUser users' name = ownUser users name := by
  cases name with
  | str s =>
    rw [ownUser, ownUser]
    by_cases hs : s = []
    · rw [if_pos hs, if_pos hs]
    · rw [if_neg hs, if_neg hs]
      obtain ⟨id, hid⟩ := Option.isSome_iff_exists.1 (h s hs rfl)
      rw [hid, hkept s id hid]
  | _ => rfl

theorem writeRowByRow_flushed (db : Database F) {rows : List (KeyedRow F)} (hnamed : ∀ r ∈ rows, Named r) :
    Flushed rejects db rows (db.writeRowByRow rejects rows).1 (db.writeRowByRow rejects rows).2 := by
  induction rows generalizing db with
  | nil => exact ⟨.nil, fun _ _ h => h, by simp [Database.writeRowByRow], rfl⟩
  | cons r rows ih =>
    have hr : ∀ q ∈ [r], Named q := fun q hq => hnamed q (List.mem_cons.2 (.inl (List.mem_singleton.1 hq)))
    obtain ⟨hfailed, hkept, hadded, htable⟩ := ih (db.write rejects [r]).2 fun q hq =>
      hnamed q (List.mem_cons_of_mem _ hq)
    rw [Database.writeRowByRow]
    dsimp only
    cases hok : (db.write rejects [r]).1.ok with
    | true =>
      have hfirst := write_flushed db hr hok
      have haccepted : accepted rejects r = true := (write_ok db hr hok).1 r List.mem_cons_self
      refine ⟨?_, fun name id h => hkept name id (hfirst.kept name id h), fun name => ?_, ?_⟩
      · rw [List.filter_cons_of_neg (by simp [haccepted])]
        exact hfailed
      · rw [hadded, hfirst.added]
        simp only [List.mem_cons, List.not_mem_nil, or_false, exists_eq_left, exists_eq_or_imp, and_or_left, or_assoc]
      · have hown : ∀ t, Table.write (db.write rejects [r]).2.users t r =
            Table.write ((db.write rejects [r]).2.writeRowByRow rejects rows).1.users t r := by
          intro t
          rw [Table.write, Table.write, ownRow, ownRow, ownUser_kept hkept]
          exact fun s hs hname => (hfirst.added s).2 (.inr ⟨hs, r, List.mem_cons_self, haccepted, hname⟩)
        rw [htable, hfirst.table, List.filter_cons_of_pos haccepted, List.filter_cons_of_pos haccepted,
          List.foldl_cons, List.foldl_cons, hown]
        rfl
    | false =>
      have haccepted : accepted rejects r = false := by
        cases h : accepted rejects r with
        | false => rfl
        | true =>
          rw [write_single db h] at hok
          cases hok
      obtain ⟨husers, hsame⟩ := write_failed db hok
      refine ⟨?_, ?_, fun name => ?_, ?_⟩
      · rw [List.filter_cons_of_pos (by simp [haccepted])]
        have hattempt := (writeRows_spec (db.env rejects [r]) [r]).same
        exact List.rel_append hattempt hfailed
      · rw [← husers]
        exact hkept
      · rw [hadded, husers]
        simp [haccepted]
      · rw [List.filter_cons_of_neg (by simp [haccepted]), ← hsame]
        exact htable

theorem flushChunk_flushed (db : Database F) {chunk : List (KeyedRow F)} (hnamed : ∀ r ∈ chunk, Named r) :
    Flushed rejects db chunk (db.flushChunk rejects chunk).1 (db.flushChunk rejects chunk).2 := by
  rw [Database.flushChunk]
  cases hok : (db.write rejects chunk).1.ok with
  | true => exact write_flushed db hnamed hok
  | false =>
    obtain ⟨husers, htable⟩ := write_failed db hok
    have hsame : List.Forall₂ SameRow chunk (db.write rejects chunk).1.rows :=
      (writeRows_spec (db.env rejects chunk) chunk).same
    obtain ⟨hfailed, hkept, hadded, hrows⟩ :=
      @writeRowByRow_flushed F _ _ rejects (db.write rejects chunk).2 _ (@write_named F _ _ rejects db chunk hnamed)
    generalize (db.write rejects chunk).1.rows = rows at hsame hfailed hkept hadded hrows ⊢
    refine ⟨?_, ?_, fun name => ?_, ?_⟩
    · have hrejected : ∀ r r' : KeyedRow F, SameRow r r' →
          ((!accepted rejects r) = true ↔ (!accepted rejects r') = true) :=
        fun r r' h => by rw [h.accepted]
      exact (List.rel_filter hrejected hsame).comp hfailed fun _ _ _ => SameRow.trans
    · rw [← husers]
      exact hkept
    · rw [if_neg Bool.false_ne_true, hadded, husers]
      refine or_congr_right (and_congr_right fun _ => ⟨?_, ?_⟩)
      · rintro ⟨r', hr', haccepted, hname⟩
        obtain ⟨r, hr, h⟩ := hsame.exists_left r' hr'
        exact ⟨r, hr, h.accepted ▸ haccepted, h.userName ▸ hname⟩
      · rintro ⟨r, hr, haccepted, hname⟩
        obtain ⟨r', hr', h⟩ := hsame.exists_right r hr
        exact ⟨r', hr', h.accepted ▸ haccepted, h.userName ▸ hname⟩
    · rw [if_neg Bool.false_ne_true, hrows, htable]
      have haccepted : ∀ r r' : KeyedRow F, SameRow r r' → (accepted rejects r = true ↔ accepted rejects r' = true) :=
        fun r r' h => by rw [h.accepted]
      exact (foldl_sameRow (List.rel_filter haccepted hsame) _).symm

/-! ## Any order -/

theorem Table.upsert_other (t : Table F) {u : Upsert F} {k : JobKey F} (hkey : u.row.key ≠ k) :
    (t.upsert u).rows.get k = t.rows.get k := by
  unfold Table.upsert
  split
  next jobId time hu =>
    rw [Table.set_get, if_neg]
    intro hself
    exact hkey (hu.trans hself)
  · rfl

theorem Table.upsert_own {t t' : Table F} {u : Upsert F} (h : t.rows.get u.row.key = t'.rows.get u.row.key) :
    (t.upsert u).rows.get u.row.key = (t'.upsert u).rows.get u.row.key := by
  unfold Table.upsert
  split
  next jobId time hu =>
    rw [hu] at h
    have hself : ∀ row : Row F, (storedRecord row jobId time).key = (.int jobId, some time) := fun _ => rfl
    rw [h, hu, Table.set_get, Table.set_get, if_pos (hself _), if_pos (hself _)]
  · exact h

theorem write_other (users : Dict Str Int) (t : Table F) (r : KeyedRow F) (k : JobKey F) (hkey : r.key ≠ k) :
    (Table.write users t r).rows.get k = t.rows.get k := by
  rw [Table.write]
  cases hu : Jobs.upsert (ownRow users r) with
  | error e => rfl
  | ok u =>
    have hrow : u.row.key = r.key := by
      rw [upsert_row hu]
      rfl
    exact t.upsert_other (hrow.trans_ne hkey)

theorem write_own (users : Dict Str Int) (t t' : Table F) (r : KeyedRow F) (h : t.rows.get r.key = t'.rows.get r.key) :
    (Table.write users t r).rows.get r.key = (Table.write users t' r).rows.get r.key := by
  rw [Table.write, Table.write]
  cases hu : Jobs.upsert (ownRow users r) with
  | error e => exact h
  | ok u =>
    have hkey : u.row.key = r.key := by
      rw [upsert_row hu]
      rfl
    dsimp only
    rw [← hkey] at h ⊢
    exact Table.upsert_own h

/-- **The bulk write equals the rows one by one**, in any order. -/
theorem flush_chunk_refines (rejects : Row F → Bool) (db : Database F) (chunk : List (KeyedRow F))
    (hkeys : (chunk.map KeyedRow.key).Nodup) (hnamed : ∀ r ∈ chunk, Named r) :
    let db' := (db.flushChunk rejects chunk).1
    List.Forall₂ SameRow (chunk.filter fun r => !accepted rejects r) (db.flushChunk rejects chunk).2 ∧
      (∀ name id, db.users.get name = some id → db'.users.get name = some id) ∧
      (∀ name, (db'.users.get name).isSome = true ↔
        (db.users.get name).isSome = true ∨ name ≠ [] ∧ ∃ r ∈ chunk, accepted rejects r = true ∧
          r.row.userName = .str name) ∧
      (∀ rows : List (KeyedRow F), rows.Perm (chunk.filter (accepted rejects)) → ∀ k,
        db'.table.rows.get k = (rows.foldl (Table.write db'.users) db.table).rows.get k) ∧
      ∀ r ∈ chunk, db'.table.rows.get r.key =
        if accepted rejects r then (Table.write db'.users db.table r).rows.get r.key else db.table.rows.get r.key := by
  obtain ⟨hfailed, hkept, hadded, htable⟩ := @flushChunk_flushed F _ _ rejects db chunk hnamed
  have hsub : ((chunk.filter (accepted rejects)).map KeyedRow.key).Nodup :=
    (List.Sublist.map _ List.filter_sublist).nodup hkeys
  refine ⟨hfailed, hkept, hadded, fun rows hperm k => ?_, fun r hr => ?_⟩
  · rw [htable]
    exact (@List.foldl_write_perm _ _ _ _ (Table.write (db.flushChunk rejects chunk).1.users) (fun t => t.rows.get)
      KeyedRow.key (write_other _) (write_own _) _ _ hsub hperm db.table k).symm
  · rw [htable]
    by_cases haccepted : accepted rejects r = true
    · rw [if_pos haccepted]
      exact @List.foldl_write_own _ _ _ _ (Table.write (db.flushChunk rejects chunk).1.users) (fun t => t.rows.get)
        KeyedRow.key (write_other _) (write_own _) _ hsub r (List.mem_filter.2 ⟨hr, haccepted⟩) db.table
    · rw [if_neg haccepted]
      refine @List.foldl_write_other _ _ _ _ (Table.write (db.flushChunk rejects chunk).1.users) (fun t => t.rows.get)
        KeyedRow.key (write_other _) _ _ ?_ db.table
      rintro hin
      obtain ⟨q, hq, hqr⟩ := List.mem_map.1 hin
      obtain ⟨hq, hqaccepted⟩ := List.mem_filter.1 hq
      rw [List.inj_on_of_nodup_map hkeys hq hr hqr] at hqaccepted
      exact haccepted hqaccepted

/-- A row of a user, of job `jobId`. -/
def userRow (jobId : Int) (name : Str) : KeyedRow ℚ :=
  ⟨{ bareRow jobId 1 "RUNNING" with userName := .str name }, .listed, (.int jobId, some 1), rfl⟩

/-- A database that refuses the rows of job 8. -/
def refusesEight (row : Row ℚ) : Bool := decide (row.jobId.hash = .ok (.int 8))

/-- The rejected row of a user does not keep the others from being written. -/
theorem flush_chunk_refines_refusesEight :
    let db : Database ℚ := ⟨Dict.empty, 1, Table.empty⟩
    let chunk := [userRow 7 "alice", userRow 8 "bob", ⟨bareRow 9 1 "RUNNING", .listed, (.int 9, some 1), rfl⟩]
    (db.flushChunk refusesEight chunk).1.table.rows.get (.int 8, some 1) = none ∧
      ((db.flushChunk refusesEight chunk).1.users.get "bob").isSome = false := by
  have hspec := flush_chunk_refines refusesEight ⟨Dict.empty, 1, Table.empty⟩
    [userRow 7 "alice", userRow 8 "bob", ⟨bareRow 9 1 "RUNNING", .listed, (.int 9, some 1), rfl⟩]
    (by decide) (by
      intro r hr _
      rcases List.mem_cons.1 hr with rfl | hr
      · rfl
      rcases List.mem_cons.1 hr with rfl | hr
      · rfl
      rcases List.mem_cons.1 hr with rfl | hr
      · rfl
      cases hr)
  obtain ⟨-, -, hadded, -, hstored⟩ := hspec
  constructor
  · refine (hstored (userRow 8 "bob") (by simp)).trans ?_
    decide
  · rw [Bool.eq_false_iff, ne_eq, hadded]
    rintro (hknown | ⟨-, r, hr, haccepted, hname⟩)
    · cases hknown
    rcases List.mem_cons.1 hr with rfl | hr
    · exact absurd (Value.str.inj hname) (by decide)
    rcases List.mem_cons.1 hr with rfl | hr
    · exact absurd haccepted (by decide)
    rcases List.mem_cons.1 hr with rfl | hr
    · cases hname
    cases hr

end SlurmWeb.Jobs
