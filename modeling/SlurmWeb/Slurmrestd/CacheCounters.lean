import SlurmWeb.Lib.Strings
import SlurmWeb.Lib.Tally

/-!
# Hit and miss counters (slurmweb/cache.py)

Every count is three Redis commands, a reset is six and one for each key it finds. Commands of
different workers interleave. For each kind, hits and misses, the counters in Redis are a tally of
the library and the commands of a call on that kind are its moves.

| here | there |
| --- | --- |
| `Call.program` | `count_miss` (:69), `count_hit` (:75), `reset` (:107) |
| `Command.Exec` | what Redis does with one command |
| `metrics` | `metrics` (:81) |
| `Name` | `CacheKey.count`: the callers' are constants ("jobs", "individual-job", "stats", …) |

* `totals_are_sums` — with no count beside the part of a reset that clears its kind, the totals are
  the sums once all calls have ended.
* `torn_by_reset` — a hit that a reset cuts in two is in the total and under no key.
-/

namespace SlurmWeb.CachingService

open Strings Tally

inductive Kind
  | hit
  | miss
deriving DecidableEq

/-- `KEY_PREFIX_HIT`, `KEY_PREFIX_MISS` -/
def Kind.KEY_PREFIX : Kind → Str
  | .hit => "cache-hit-"
  | .miss => "cache-miss-"

/-- What keys are counted under. Nothing is counted as "keys" or "total", which would share its key
in Redis with the set or the total. -/
@[ext] structure Name where
  text : Str
  not_keys : text ≠ "keys"
  not_total : text ≠ "total"
deriving DecidableEq

/-- What Redis holds for the statistics. -/
inductive Slot
  | keys (kind : Kind)
  | total (kind : Kind)
  | key (kind : Kind) (name : Name)

/-- The key in Redis. -/
def Slot.text : Slot → Str
  | .keys .hit => "cache-hit-keys"
  | .keys .miss => "cache-miss-keys"
  | .total .hit => "cache-hit-total"
  | .total .miss => "cache-miss-total"
  | .key kind name => kind.KEY_PREFIX ++ name.text

/-- Sets and integers; an absent key is an empty set and no integer. -/
structure Redis where
  sets : Str → List Name
  values : Str → Option Nat

def Redis.empty : Redis := ⟨fun _ => [], fun _ => none⟩

/-- `SADD` -/
def Redis.sadd (db : Redis) (key : Str) (name : Name) : Redis :=
  { db with sets := Function.update db.sets key ((db.sets key).insert name) }

/-- `INCR` -/
def Redis.incr (db : Redis) (key : Str) : Redis :=
  { db with values := Function.update db.values key (some ((db.values key).getD 0 + 1)) }

/-- `SET key value` -/
def Redis.set (db : Redis) (key : Str) (value : Nat) : Redis :=
  ⟨Function.update db.sets key [], Function.update db.values key (some value)⟩

/-- `DEL` -/
def Redis.delete (db : Redis) (key : Str) : Redis :=
  ⟨Function.update db.sets key [], Function.update db.values key none⟩

inductive Command
  | saddKey (kind : Kind) (name : Name)
  | incrKey (kind : Kind) (name : Name)
  | incrTotal (kind : Kind)
  | setTotal (kind : Kind)
  | smembers (kind : Kind)
  | deleteKey (kind : Kind) (name : Name)
  | deleteKeys (kind : Kind)
deriving DecidableEq

def Command.kind : Command → Kind
  | .saddKey kind _ | .incrKey kind _ | .incrTotal kind | .setTotal kind | .smembers kind | .deleteKey kind _
  | .deleteKeys kind => kind

inductive Call
  | count (kind : Kind) (name : Name)
  | reset

/-- The commands of a call, the ones for the keys it finds apart. -/
def Call.program : Call → List Command
  | .count kind name => [.saddKey kind name, .incrKey kind name, .incrTotal kind]
  | .reset => [.setTotal .hit, .setTotal .miss, .smembers .hit, .smembers .miss, .deleteKeys .hit, .deleteKeys .miss]

/-- One command; a worker that reads the set has a deletion to do for each member, in any order. -/
inductive Command.Exec : Command → Redis → Redis → List Command → Prop
  | saddKey {db : Redis} (kind : Kind) (name : Name) :
      Exec (.saddKey kind name) db (db.sadd (Slot.keys kind).text name) []
  | incrKey {db : Redis} (kind : Kind) (name : Name) :
      Exec (.incrKey kind name) db (db.incr (Slot.key kind name).text) []
  | incrTotal {db : Redis} (kind : Kind) : Exec (.incrTotal kind) db (db.incr (Slot.total kind).text) []
  | setTotal {db : Redis} (kind : Kind) : Exec (.setTotal kind) db (db.set (Slot.total kind).text 0) []
  | smembers {db : Redis} (kind : Kind) (names : List Name) (all : names.Perm (db.sets (Slot.keys kind).text)) :
      Exec (.smembers kind) db db (names.map (.deleteKey kind))
  | deleteKey {db : Redis} (kind : Kind) (name : Name) :
      Exec (.deleteKey kind name) db (db.delete (Slot.key kind name).text) []
  | deleteKeys {db : Redis} (kind : Kind) : Exec (.deleteKeys kind) db (db.delete (Slot.keys kind).text) []

/-- Redis, and what each call has left to do. -/
structure State where
  redis : Redis
  calls : List (List Command)

def State.start (calls : List Call) : State := ⟨.empty, calls.map Call.program⟩

/-- A worker runs its next command; `allowed` tells what may run beside the other calls. -/
inductive Step (allowed : List (List Command) → Command → Prop) : State → State → Prop
  | run {db db' : Redis} {command : Command} {rest more : List Command} (before after : List (List Command))
      (may : allowed (before ++ after) command) (exec : command.Exec db db' more) :
      Step allowed ⟨db, before ++ (command :: rest) :: after⟩ ⟨db', before ++ (more ++ rest) :: after⟩

/-- The states of the runs of these calls. -/
abbrev Reachable (allowed : List (List Command) → Command → Prop) (calls : List Call) (s : State) : Prop :=
  Relation.ReflTransGen (Step allowed) (State.start calls) s

def State.Ended (s : State) : Prop := ∀ todo ∈ s.calls, todo = []

/-- A count of the kind is under way. -/
def Counting (kind : Kind) (todo : List Command) : Prop :=
  .incrTotal kind ∈ todo ∧ ∀ name, .saddKey kind name ∉ todo

/-- A reset has set the kind's total to 0, and not yet deleted the kind's set. -/
def Clearing (kind : Kind) (todo : List Command) : Prop :=
  .deleteKeys kind ∈ todo ∧ .setTotal kind ∉ todo

/-- No count begins while a reset clears its kind, and none is under way when a clearing begins. -/
def NoOverlap (others : List (List Command)) : Command → Prop
  | .saddKey kind _ => ∀ todo ∈ others, ¬ Clearing kind todo
  | .setTotal kind => ∀ todo ∈ others, ¬ Counting kind todo
  | _ => True

/-- `metrics` for one kind: the counters of the members, in the order Redis answers, and the total. -/
def metrics (db : Redis) (kind : Kind) (members : List Name) : List (Name × Nat) × Nat :=
  (members.filterMap fun name => (db.values (Slot.key kind name).text).map (name, ·),
    (db.values (Slot.total kind).text).getD 0)

/-- The total is the sum of the counters, for hits and for misses. -/
def TotalsAreSums (db : Redis) : Prop :=
  ∀ (kind : Kind) (members : List Name), members.Perm (db.sets (Slot.keys kind).text) →
    (metrics db kind members).2 = ((metrics db kind members).1.map Prod.snd).sum

/-! ## Keys in Redis -/

theorem append_cancel_kind {kind kind' : Kind} {s t : Str} (h : kind.KEY_PREFIX ++ s = kind'.KEY_PREFIX ++ t) :
    kind = kind' ∧ s = t := by
  have hkind : kind = kind' := by
    have htake : ∀ (k : Kind) (u : Str), (k.KEY_PREFIX ++ u).take 7 = k.KEY_PREFIX.take 7 := by
      intro k u
      refine List.take_append_of_le_length ?_
      cases k <;> decide
    have hpre : kind.KEY_PREFIX.take 7 = kind'.KEY_PREFIX.take 7 := by rw [← htake kind s, h, htake]
    revert hpre
    cases kind <;> cases kind' <;> decide
  subst hkind
  exact ⟨rfl, List.append_cancel_left h⟩

/-- No two slots share a key. -/
theorem text_injective : Function.Injective Slot.text := by
  have hkeys : ∀ kind, (Slot.keys kind).text = kind.KEY_PREFIX ++ "keys".toList := fun kind => by cases kind <;> rfl
  have htotal : ∀ kind, (Slot.total kind).text = kind.KEY_PREFIX ++ "total".toList := fun kind => by cases kind <;> rfl
  have hkey : ∀ kind name, (Slot.key kind name).text = kind.KEY_PREFIX ++ name.text := fun _ _ => rfl
  intro a b h
  cases a with
  | keys kind =>
    cases b with
    | keys kind' => rw [hkeys, hkeys] at h; rw [(append_cancel_kind h).1]
    | total kind' => rw [hkeys, htotal] at h; exact absurd (append_cancel_kind h).2 (by decide)
    | key kind' name => rw [hkeys, hkey] at h; exact absurd (append_cancel_kind h).2.symm name.not_keys
  | total kind =>
    cases b with
    | keys kind' => rw [htotal, hkeys] at h; exact absurd (append_cancel_kind h).2 (by decide)
    | total kind' => rw [htotal, htotal] at h; rw [(append_cancel_kind h).1]
    | key kind' name => rw [htotal, hkey] at h; exact absurd (append_cancel_kind h).2.symm name.not_total
  | key kind name =>
    cases b with
    | keys kind' => rw [hkey, hkeys] at h; exact absurd (append_cancel_kind h).2 name.not_keys
    | total kind' => rw [hkey, htotal] at h; exact absurd (append_cancel_kind h).2 name.not_total
    | key kind' name' =>
      rw [hkey, hkey] at h
      rw [(append_cancel_kind h).1, Name.ext (append_cancel_kind h).2]

@[simp] theorem text_eq {a b : Slot} : a.text = b.text ↔ a = b := text_injective.eq_iff

/-! ## The tally of a kind -/

/-- What Redis holds for the kind. -/
def tally (db : Redis) (kind : Kind) : Counters Name where
  keys := db.sets (Slot.keys kind).text
  counter name := (db.values (Slot.key kind name).text).getD 0
  total := (db.values (Slot.total kind).text).getD 0

/-- The commands on the kind. -/
def part (kind : Kind) (todo : List Command) : List Command := todo.filter (·.kind = kind)

/-- The commands of a phase. -/
def commands (kind : Kind) : Phase Name → List Command
  | .enlist name => [.saddKey kind name, .incrKey kind name, .incrTotal kind]
  | .add name => [.incrKey kind name, .incrTotal kind]
  | .addTotal => [.incrTotal kind]
  | .zero => [.setTotal kind, .smembers kind, .deleteKeys kind]
  | .read => [.smembers kind, .deleteKeys kind]
  | .drop names => names.map (.deleteKey kind) ++ [.deleteKeys kind]
  | .ended => []

def Command.deleted : Command → Option Name
  | .deleteKey _ name => some name
  | _ => none

/-- The phase a call is in, by its commands on a kind. -/
def phaseOf : List Command → Phase Name
  | [] => .ended
  | .saddKey _ name :: _ => .enlist name
  | .incrKey _ name :: _ => .add name
  | .incrTotal _ :: _ => .addTotal
  | .setTotal _ :: _ => .zero
  | .smembers _ :: _ => .read
  | todo => .drop (todo.filterMap Command.deleted)

theorem phaseOf_commands (kind : Kind) (p : Phase Name) : phaseOf (commands kind p) = p := by
  cases p with
  | drop names =>
    have hdeleted : (commands kind (.drop names)).filterMap Command.deleted = names := by
      simp [commands, Command.deleted, Function.comp_def]
    cases names with
    | nil => rfl
    | cons name names => exact congrArg Phase.drop hdeleted
  | _ => rfl

@[simp] theorem part_append (kind : Kind) (todo todo' : List Command) :
    part kind (todo ++ todo') = part kind todo ++ part kind todo' := List.filter_append ..

theorem part_of_kind {kind : Kind} {todo : List Command} (h : ∀ command ∈ todo, command.kind = kind) :
    part kind todo = todo := List.filter_eq_self.2 fun command hmem => by simp [h command hmem]

theorem part_of_other {kind : Kind} {todo : List Command} (h : ∀ command ∈ todo, command.kind ≠ kind) :
    part kind todo = [] := List.filter_eq_nil_iff.2 fun command hmem => by simp [h command hmem]

theorem mem_part {kind : Kind} {command : Command} {todo : List Command} :
    command ∈ part kind todo ↔ command ∈ todo ∧ command.kind = kind := by simp [part]

theorem part_program (kind : Kind) (call : Call) :
    ∃ p, part kind call.program = commands kind p ∧ p.counting = false ∧ p.clearing = false := by
  cases call with
  | count kind' name =>
    by_cases h : kind' = kind
    · subst h
      exact ⟨.enlist name, part_of_kind (by simp [Call.program, Command.kind]), rfl, rfl⟩
    · exact ⟨.ended, part_of_other (by simp [Call.program, Command.kind, h]), rfl, rfl⟩
  | reset => exact ⟨.zero, by cases kind <;> rfl, rfl, rfl⟩

/-- The commands a command leaves are of its kind. -/
theorem exec_kind {command : Command} {db db' : Redis} {more : List Command} (h : command.Exec db db' more) :
    ∀ c ∈ more, c.kind = command.kind := by
  cases h with
  | smembers kind names _ =>
    intro c hc
    obtain ⟨name, _, rfl⟩ := List.mem_map.1 hc
    rfl
  | _ => simp

/-- A command leaves the other kind's tally alone. -/
theorem exec_other {command : Command} {db db' : Redis} {more : List Command}
    (h : command.Exec db db' more) {kind : Kind}
    (hkind : command.kind ≠ kind) : tally db' kind = tally db kind := by
  cases h <;> ext1 <;>
    simp_all [tally, Command.kind, Redis.sadd, Redis.incr, Redis.set, Redis.delete, eq_comm]

section Tallies

variable (db : Redis) (kind : Kind)

theorem tally_sadd (name : Name) : tally (db.sadd (Slot.keys kind).text name) kind =
    { tally db kind with keys := (tally db kind).keys.insert name } := by
  ext1 <;> simp [tally, Redis.sadd]

theorem tally_incr_key (name : Name) : tally (db.incr (Slot.key kind name).text) kind =
    { tally db kind with
        counter := Function.update (tally db kind).counter name ((tally db kind).counter name + 1) } := by
  ext1
  · rfl
  · funext other
    by_cases h : other = name
    · subst h
      simp [tally, Redis.incr]
    · simp [tally, Redis.incr, Function.update_of_ne, h]
  · simp [tally, Redis.incr]

theorem tally_incr_total : tally (db.incr (Slot.total kind).text) kind =
    { tally db kind with total := (tally db kind).total + 1 } := by
  ext1 <;> simp [tally, Redis.incr]

theorem tally_set_total : tally (db.set (Slot.total kind).text 0) kind = { tally db kind with total := 0 } := by
  ext1 <;> simp [tally, Redis.set]

theorem tally_delete_key (name : Name) : tally (db.delete (Slot.key kind name).text) kind =
    { tally db kind with counter := Function.update (tally db kind).counter name 0 } := by
  ext1
  · simp [tally, Redis.delete]
  · funext other
    by_cases h : other = name
    · subst h
      simp [tally, Redis.delete]
    · simp [tally, Redis.delete, Function.update_of_ne, h]
  · simp [tally, Redis.delete]

theorem tally_delete_keys : tally (db.delete (Slot.keys kind).text) kind = { tally db kind with keys := [] } := by
  ext1 <;> simp [tally, Redis.delete]

end Tallies

/-- A command is a move of its kind's tally. -/
theorem exec_move {command : Command} {db db' : Redis} {more rest : List Command} {p : Phase Name}
    (h : command.Exec db db' more) (hp : command :: rest = commands command.kind p) :
    ∃ p', more ++ rest = commands command.kind p' ∧ Move (tally db command.kind) p (tally db' command.kind) p' := by
  have hphase : p = phaseOf (command :: rest) := by rw [hp, phaseOf_commands]
  subst hphase
  cases h with
  | saddKey kind name =>
    refine ⟨.add name, (List.cons.inj hp).2, ?_⟩
    rw [Command.kind, tally_sadd]
    exact .enlist (tally db kind) name
  | incrKey kind name =>
    refine ⟨.addTotal, (List.cons.inj hp).2, ?_⟩
    rw [Command.kind, tally_incr_key]
    exact .add ..
  | incrTotal kind =>
    refine ⟨.ended, (List.cons.inj hp).2, ?_⟩
    rw [Command.kind, tally_incr_total]
    exact .addTotal ..
  | setTotal kind =>
    refine ⟨.read, (List.cons.inj hp).2, ?_⟩
    rw [Command.kind, tally_set_total]
    exact .zero ..
  | smembers kind names hall =>
    have hrest : rest = [.deleteKeys kind] := (List.cons.inj hp).2
    exact ⟨.drop names, by rw [hrest]; rfl, .read _ _ hall⟩
  | deleteKey kind name =>
    refine ⟨.drop (rest.filterMap Command.deleted), (List.cons.inj hp).2, ?_⟩
    rw [Command.kind, tally_delete_key]
    exact .drop ..
  | deleteKeys kind =>
    -- nothing follows the deletion of the set
    have hnames : rest.filterMap Command.deleted = [] ∧ rest = [] := by
      generalize hn : rest.filterMap Command.deleted = names at *
      replace hp : Command.deleteKeys kind :: rest = names.map (.deleteKey kind) ++ [.deleteKeys kind] := by
        rw [← hn]
        exact hp
      cases names with
      | nil => exact ⟨rfl, (List.cons.inj hp).2⟩
      | cons name names => cases hp
    obtain ⟨hdeleted, rfl⟩ := hnames
    refine ⟨.ended, rfl, ?_⟩
    rw [Command.kind, tally_delete_keys]
    exact .empty _

/-! ## Runs -/

/-- The phase of a call on the kind. -/
def phase (kind : Kind) (todo : List Command) : Phase Name := phaseOf (part kind todo)

/-- The tally's workers. -/
def phases (kind : Kind) (calls : List (List Command)) : Multiset (Phase Name) := ↑(calls.map (phase kind))

/-- The commands left are those of the phase. -/
def OnTrack (kind : Kind) (todo : List Command) : Prop := part kind todo = commands kind (phase kind todo)

theorem phases_mid (kind : Kind) (before after : List (List Command)) (todo : List Command) :
    phases kind (before ++ todo :: after) = phase kind todo ::ₘ phases kind (before ++ after) := by
  simp only [phases, List.map_append, List.map_cons, Multiset.cons_coe, Multiset.coe_eq_coe]
  exact List.perm_middle

theorem onTrack_of {kind : Kind} {todo : List Command} {p : Phase Name} (h : part kind todo = commands kind p) :
    OnTrack kind todo ∧ phase kind todo = p := by
  have hphase : phase kind todo = p := by rw [phase, h, phaseOf_commands]
  exact ⟨by rw [OnTrack, hphase, h], hphase⟩

theorem mem_onTrack {kind : Kind} {todo : List Command} (h : OnTrack kind todo) {command : Command}
    (hkind : command.kind = kind) : command ∈ todo ↔ command ∈ commands kind (phase kind todo) := by
  rw [← show part kind todo = _ from h, mem_part]
  simp [hkind]

theorem counting_of_phase {kind : Kind} {todo : List Command} (h : OnTrack kind todo)
    (hc : (phase kind todo).counting = true) : Counting kind todo := by
  refine ⟨(mem_onTrack h rfl).2 ?_, fun name => (mem_onTrack h rfl).not.2 ?_⟩ <;>
    cases hp : phase kind todo <;> simp_all [commands, Phase.counting]

theorem clearing_of_phase {kind : Kind} {todo : List Command} (h : OnTrack kind todo)
    (hc : (phase kind todo).clearing = true) : Clearing kind todo := by
  refine ⟨(mem_onTrack h rfl).2 ?_, (mem_onTrack h rfl).not.2 ?_⟩ <;>
    cases hp : phase kind todo <;> simp_all [commands, Phase.clearing]

/-- What may run beside the other calls may move beside the other workers. -/
theorem apart_of_noOverlap {command : Command} {rest : List Command} {others : List (List Command)} {p : Phase Name}
    (hp : command :: rest = commands command.kind p) (honTrack : ∀ todo ∈ others, OnTrack command.kind todo)
    (h : NoOverlap others command) : Apart (phases command.kind others) p := by
  have hphase : p = phaseOf (command :: rest) := by rw [hp, phaseOf_commands]
  subst hphase
  have hothers : ∀ q ∈ phases command.kind others, ∃ todo ∈ others, phase command.kind todo = q := by
    intro q hq
    simpa [phases] using hq
  cases command with
  | saddKey kind name =>
    intro q hq
    obtain ⟨todo, hmem, rfl⟩ := hothers q hq
    exact Bool.eq_false_iff.2 fun hc => h todo hmem (clearing_of_phase (honTrack todo hmem) hc)
  | setTotal kind =>
    intro q hq
    obtain ⟨todo, hmem, rfl⟩ := hothers q hq
    exact Bool.eq_false_iff.2 fun hc => h todo hmem (counting_of_phase (honTrack todo hmem) hc)
  | _ => trivial

/-- The invariant of a run, for one kind. -/
structure Sound (kind : Kind) (s : State) : Prop where
  onTrack : ∀ todo ∈ s.calls, OnTrack kind todo
  inv : Inv (tally s.redis kind) (phases kind s.calls)

theorem sound_start (kind : Kind) (calls : List Call) : Sound kind (.start calls) := by
  have hcalls : ∀ todo ∈ (State.start calls).calls, OnTrack kind todo ∧
      (phase kind todo).counting = false ∧ (phase kind todo).clearing = false := by
    intro todo hmem
    obtain ⟨call, _, rfl⟩ := List.mem_map.1 hmem
    obtain ⟨p, hp, hcounting, hclearing⟩ := part_program kind call
    obtain ⟨honTrack, hphase⟩ := onTrack_of hp
    exact ⟨honTrack, hphase ▸ hcounting, hphase ▸ hclearing⟩
  refine ⟨fun todo hmem => (hcalls todo hmem).1, inv_start ?_ ?_⟩
  · intro p hp
    obtain ⟨todo, hmem, rfl⟩ := List.mem_map.1 (Multiset.mem_coe.1 hp)
    exact (hcalls todo hmem).2.1
  · intro p hp
    obtain ⟨todo, hmem, rfl⟩ := List.mem_map.1 (Multiset.mem_coe.1 hp)
    exact (hcalls todo hmem).2.2

theorem sound_step {kind : Kind} {s s' : State} (hstep : Step NoOverlap s s') (h : Sound kind s) : Sound kind s' := by
  obtain ⟨before, after, hmay, hexec⟩ := hstep
  rename_i db db' command rest more
  obtain ⟨honTrack, hinv⟩ := h
  simp only [List.forall_mem_append, List.forall_mem_cons] at honTrack
  obtain ⟨hbefore, htodo, hafter⟩ := honTrack
  have hothers : ∀ todo ∈ before ++ after, OnTrack kind todo := List.forall_mem_append.2 ⟨hbefore, hafter⟩
  have hon : ∀ {todo'}, OnTrack kind todo' → ∀ todo ∈ before ++ todo' :: after, OnTrack kind todo := by
    intro todo' htodo'
    simp only [List.forall_mem_append, List.forall_mem_cons]
    exact ⟨hbefore, htodo', hafter⟩
  rw [phases_mid] at hinv
  by_cases hkind : command.kind = kind
  · -- the call moves in this kind's tally
    subst hkind
    have hpart : command :: part command.kind rest = commands command.kind (phase command.kind (command :: rest)) := by
      rw [← show part _ _ = _ from htodo]
      simp [part]
    obtain ⟨p', hp', hmove⟩ := exec_move hexec hpart
    have hnew : part command.kind (more ++ rest) = commands command.kind p' := by
      rw [part_append, part_of_kind (exec_kind hexec), hp']
    obtain ⟨honTrack', hphase⟩ := onTrack_of hnew
    refine ⟨hon honTrack', ?_⟩
    rw [phases_mid, hphase]
    exact step_inv (.run _ (apart_of_noOverlap hpart hothers hmay) hmove) hinv
  · -- nothing happens in this kind's tally
    have hsame : part kind (more ++ rest) = part kind (command :: rest) := by
      rw [part_append, part_of_other fun c hc => by rw [exec_kind hexec c hc]; exact hkind]
      simp [part, hkind]
    have hphase : phase kind (more ++ rest) = phase kind (command :: rest) := by rw [phase, hsame, phase]
    refine ⟨hon (by rw [OnTrack, hsame, hphase]; exact htodo), ?_⟩
    rw [phases_mid, hphase, exec_other hexec hkind]
    exact hinv

theorem sound_run {kind : Kind} {calls : List Call} {s : State} (h : Reachable NoOverlap calls s) : Sound kind s := by
  induction h with
  | refl => exact sound_start kind calls
  | tail _ hstep ih => exact sound_step hstep ih

/-- The counters the metrics leave out are zero. -/
theorem metrics_sum (db : Redis) (kind : Kind) (members : List Name) :
    ((metrics db kind members).1.map Prod.snd).sum = (members.map (tally db kind).counter).sum := by
  induction members with
  | nil => rfl
  | cons name members ih =>
    cases hvalue : db.values (Slot.key kind name).text <;>
      simp_all [metrics, tally]

/-- **The totals are the sums** once all calls have ended, if no count overlapped the clearing of its kind. -/
theorem totals_are_sums {calls : List Call} {s : State} (h : Reachable NoOverlap calls s) (ended : s.Ended) :
    TotalsAreSums s.redis := by
  intro kind members hmembers
  have hphases : ∀ p ∈ phases kind s.calls, p = .ended := by
    intro p hp
    obtain ⟨todo, hmem, rfl⟩ := List.mem_map.1 (Multiset.mem_coe.1 hp)
    rw [ended todo hmem]
    rfl
  have htotal := (sound_run h).inv.total_eq hphases
  rw [metrics_sum, (hmembers.map _).sum_eq]
  exact htotal

def jobs : Name := ⟨"jobs", by decide, by decide⟩

/-- A hit and a miss at the same time. -/
theorem totals_are_sums_jobs : ∃ s, Reachable NoOverlap [.count .hit jobs, .count .miss jobs] s ∧
    s.redis.values "cache-hit-total" = some 1 ∧ TotalsAreSums s.redis := by
  have h : Reachable NoOverlap [.count .hit jobs, .count .miss jobs] (.start _) := .refl
  have h := h.tail (.run [] [_] (by simp [NoOverlap, Clearing, Call.program]) (.saddKey ..))
  have h := h.tail (.run [_] [] (by simp [NoOverlap, Clearing]) (.saddKey ..))
  have h := h.tail (.run [_] [] trivial (.incrKey ..))
  have h := h.tail (.run [] [_] trivial (.incrKey ..))
  have h := h.tail (.run [] [_] trivial (.incrTotal ..))
  have h := h.tail (.run [_] [] trivial (.incrTotal ..))
  exact ⟨_, h, by decide, totals_are_sums h (by simp [State.Ended])⟩

/-- A reset between the second and the third command of a hit: the hit is in the total, and under no key. -/
theorem torn_by_reset : ∃ s, Reachable (fun _ _ => True) [.count .hit jobs, .reset] s ∧ s.Ended ∧
    ¬ TotalsAreSums s.redis := by
  have h : Reachable (fun _ _ => True) [.count .hit jobs, .reset] (.start _) := .refl
  have h := h.tail (.run [] [_] trivial (.saddKey ..))
  have h := h.tail (.run [] [_] trivial (.incrKey ..))
  have h := h.tail (.run [_] [] trivial (.setTotal ..))
  have h := h.tail (.run [_] [] trivial (.setTotal ..))
  have h := h.tail (.run [_] [] trivial (.smembers .hit [jobs] (.of_eq (by decide))))
  have h := h.tail (.run [_] [] trivial (.deleteKey ..))
  have h := h.tail (.run [_] [] trivial (.smembers .miss [] (.of_eq (by decide))))
  have h := h.tail (.run [_] [] trivial (.deleteKeys ..))
  have h := h.tail (.run [_] [] trivial (.deleteKeys ..))
  have h := h.tail (.run [] [_] trivial (.incrTotal ..))
  refine ⟨_, h, by simp [State.Ended], fun hsums => ?_⟩
  have hzero := hsums .hit [] (.of_eq (by decide))
  revert hzero
  decide

end SlurmWeb.CachingService
