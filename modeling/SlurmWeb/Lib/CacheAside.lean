import Mathlib.Logic.Relation
import Mathlib.Logic.Function.Basic

/-!
# Cache-aside

Readers look a key up in a shared cache, fetch from a server what is not there, one request after
another, and put it. Writers change the server, then delete keys. Every command and every request is
a step, and the steps of all readers and writers interleave.

Each step takes an instant. An entry remembers the instants at which the server gave its parts, who
put it and when; nothing reads that but the statements.

* `Inv.step`, `Reachable.inv` — an entry was put after every deletion of its key.
* `stale_read` — a read that starts after a write has returned and still gets older data, for a key the
  write deletes, got what another reader had put after the deletion.
-/

namespace CacheAside

/-- What a read computes: requests, and a value or an exception. -/
inductive Fetch (Q A V : Type)
  | done (value : V)
  | raised
  | ask (request : Q) (next : A → Fetch Q A V)

/-- The operations over a server with states `S`, requests `Q` and answers `A`. -/
structure Protocol (K R W Q A V S : Type) where
  enabled : Bool
  key : R → K
  fetch : R → Fetch Q A V
  invalidated : W → List K
  answer : S → Q → A

structure Entry (V : Type) where
  value : V
  instants : List Nat
  reader : Nat
  storedAt : Nat

/-- Where a read got its value. -/
inductive Source
  | fetched
  | put (storedAt : Nat)
  | hit

inductive Read (R Q A V : Type)
  | idle
  | called (op : R) (start : Nat)
  | fetching (op : R) (start : Nat) (rest : Fetch Q A V) (instants : List Nat)
  | returned (op : R) (start : Nat) (value : V) (instants : List Nat) (source : Source)
  | raised

inductive Write (K W : Type)
  | idle
  | called (op : W)
  | applied (op : W) (effect : Nat) (left : List K) (deletions : List (K × Nat))
  | returned (op : W) (effect : Nat) (deletions : List (K × Nat)) (finish : Nat)
  | raised

/-- The deletions a write has made. -/
def Write.deletions {K W : Type} : Write K W → List (K × Nat)
  | .applied _ _ _ deletions | .returned _ _ deletions _ => deletions
  | _ => []

structure System (K R W Q A V S : Type) where
  now : Nat
  server : S
  cache : K → Option (Entry V)
  reads : Nat → Read R Q A V
  writes : Nat → Write K W

variable {K R W Q A V S : Type}

/-- Nothing has run. -/
def System.start (server : S) : System K R W Q A V S := ⟨0, server, fun _ => none, fun _ => .idle, fun _ => .idle⟩

namespace System

variable (s : System K R W Q A V S)

def setRead (r : Nat) (read : Read R Q A V) : System K R W Q A V S :=
  { s with now := s.now + 1, reads := Function.update s.reads r read }

def setWrite (w : Nat) (write : Write K W) : System K R W Q A V S :=
  { s with now := s.now + 1, writes := Function.update s.writes w write }

end System

variable [DecidableEq K] (P : Protocol K R W Q A V S)

inductive Step : System K R W Q A V S → System K R W Q A V S → Prop
  | call (s : System K R W Q A V S) (r : Nat) (op : R) : s.reads r = .idle → Step s (s.setRead r (.called op s.now))
  | bypass (s : System K R W Q A V S) (r : Nat) {op : R} {start : Nat} : P.enabled = false →
      s.reads r = .called op start → Step s (s.setRead r (.fetching op start (P.fetch op) []))
  | hit (s : System K R W Q A V S) (r : Nat) {op : R} {start : Nat} {e : Entry V} : P.enabled = true →
      s.reads r = .called op start → s.cache (P.key op) = some e →
      Step s (s.setRead r (.returned op start e.value e.instants .hit))
  | miss (s : System K R W Q A V S) (r : Nat) {op : R} {start : Nat} : P.enabled = true →
      s.reads r = .called op start → s.cache (P.key op) = none →
      Step s (s.setRead r (.fetching op start (P.fetch op) []))
  | ask (s : System K R W Q A V S) (r : Nat) {op : R} {start : Nat} {request : Q} {next : A → Fetch Q A V}
      {instants : List Nat} : s.reads r = .fetching op start (.ask request next) instants →
      Step s (s.setRead r (.fetching op start (next (P.answer s.server request)) (instants ++ [s.now])))
  | raise (s : System K R W Q A V S) (r : Nat) {op : R} {start : Nat} {instants : List Nat} :
      s.reads r = .fetching op start .raised instants → Step s (s.setRead r .raised)
  | direct (s : System K R W Q A V S) (r : Nat) {op : R} {start : Nat} {value : V} {instants : List Nat} :
      P.enabled = false → s.reads r = .fetching op start (.done value) instants →
      Step s (s.setRead r (.returned op start value instants .fetched))
  | put (s : System K R W Q A V S) (r : Nat) {op : R} {start : Nat} {value : V} {instants : List Nat} :
      P.enabled = true → s.reads r = .fetching op start (.done value) instants →
      Step s { s.setRead r (.returned op start value instants (.put s.now)) with
        cache := Function.update s.cache (P.key op) (some ⟨value, instants, r, s.now⟩) }
  | expire (s : System K R W Q A V S) (k : K) :
      Step s { s with now := s.now + 1, cache := Function.update s.cache k none }
  | change (s : System K R W Q A V S) (server : S) : Step s { s with now := s.now + 1, server }
  | write (s : System K R W Q A V S) (w : Nat) (op : W) : s.writes w = .idle → Step s (s.setWrite w (.called op))
  | apply (s : System K R W Q A V S) (w : Nat) {op : W} (server : S) : s.writes w = .called op →
      Step s { s.setWrite w (.applied op s.now (if P.enabled then P.invalidated op else []) []) with server }
  | refuse (s : System K R W Q A V S) (w : Nat) {op : W} (server : S) : s.writes w = .called op →
      Step s { s.setWrite w .raised with server }
  | delete (s : System K R W Q A V S) (w : Nat) {op : W} {effect : Nat} {k : K} {left : List K}
      {deletions : List (K × Nat)} : s.writes w = .applied op effect (k :: left) deletions →
      Step s { s.setWrite w (.applied op effect left (deletions ++ [(k, s.now)])) with
        cache := Function.update s.cache k none }
  | finish (s : System K R W Q A V S) (w : Nat) {op : W} {effect : Nat} {deletions : List (K × Nat)} :
      s.writes w = .applied op effect [] deletions → Step s (s.setWrite w (.returned op effect deletions s.now))

/-- The states of the runs that begin with an empty cache. -/
def Reachable (s : System K R W Q A V S) : Prop := ∃ server, Relation.ReflTransGen (Step P) (.start server) s

variable {P} {s s' : System K R W Q A V S}

theorem Reachable.start (server : S) : Reachable P (.start server) := ⟨server, .refl⟩

theorem Reachable.step (h : Reachable P s) (step : Step P s s') : Reachable P s' :=
  let ⟨server, steps⟩ := h
  ⟨server, steps.tail step⟩

theorem Step.now (h : Step P s s') : s'.now = s.now + 1 := by cases h <;> rfl

/-- A read that has returned stays as it is. -/
theorem Step.reads_returned (h : Step P s s') {r : Nat} {op : R} {start : Nat} {value : V}
    {instants : List Nat} {source : Source} (hr : s.reads r = .returned op start value instants source) :
    s'.reads r = .returned op start value instants source := by
  have hset : ∀ {r' : Nat} {read : Read R Q A V}, s.reads r' ≠ .returned op start value instants source →
      Function.update s.reads r' read r = .returned op start value instants source := by
    intro r' read hne
    have hother : r ≠ r' := fun h => hne (by rw [← h]; exact hr)
    rw [Function.update_of_ne hother, hr]
  cases h with
  | call _ _ h | bypass _ _ h | hit _ _ h | miss _ _ h | ask _ h | raise _ h | direct _ _ h | put _ _ h =>
    exact hset (by rw [h]; exact nofun)
  | _ => exact hr

/-- A write that has returned had returned before, or returns now. -/
theorem Step.writes_returned (h : Step P s s') {w : Nat} {op : W} {effect : Nat}
    {deletions : List (K × Nat)} {finish : Nat} (hw : s'.writes w = .returned op effect deletions finish) :
    s.writes w = .returned op effect deletions finish ∨ finish = s.now := by
  have hset : ∀ {w' : Nat} {write : Write K W}, Function.update s.writes w' write w =
      .returned op effect deletions finish →
      s.writes w = .returned op effect deletions finish ∨ write = .returned op effect deletions finish := by
    intro w' write h
    by_cases hw : w = w'
    · subst hw
      rw [Function.update_self] at h
      exact .inr h
    · rw [Function.update_of_ne hw] at h
      exact .inl h
  cases h with
  | write | apply | refuse | delete =>
    rcases hset hw with h | h
    · exact .inl h
    · cases h
  | finish =>
    rcases hset hw with h | h
    · exact .inl h
    · cases h
      exact .inr rfl
  | _ => exact .inl hw

/-! ## The invariant -/

variable (P)

/-- What a write knows of its deletions. -/
def WriteOk (now : Nat) : Write K W → Prop
  | .applied op effect left deletions =>
    effect < now ∧ (P.enabled = true → ∀ k ∈ P.invalidated op, k ∈ left ∨ ∃ d, (k, d) ∈ deletions)
  | .returned op effect deletions finish =>
    effect < finish ∧ (P.enabled = true → ∀ k ∈ P.invalidated op, ∃ d, (k, d) ∈ deletions)
  | _ => True

/-- A reader put these data for the key, after each deletion of a write that had returned before the read. -/
def PutSince (s : System K R W Q A V S) (r : Nat) (op : R) (start : Nat) (value : V) (instants : List Nat) : Prop :=
  ∃ r' op' start' storedAt, r' ≠ r ∧ P.key op' = P.key op ∧
    s.reads r' = .returned op' start' value instants (.put storedAt) ∧
    ∀ w wop effect deletions finish d, s.writes w = .returned wop effect deletions finish → finish < start →
      (P.key op, d) ∈ deletions → d < storedAt

/-- What a read knows of its data. -/
def ReadOk (s : System K R W Q A V S) (r : Nat) : Read R Q A V → Prop
  | .called _ start => start < s.now
  | .fetching _ start _ instants => start < s.now ∧ ∀ t ∈ instants, start < t
  | .returned op start value instants .hit => P.enabled = true ∧ start < s.now ∧ PutSince P s r op start value instants
  | .returned _ start _ instants _ => start < s.now ∧ ∀ t ∈ instants, start < t
  | _ => True

structure Inv (s : System K R W Q A V S) : Prop where
  entry : ∀ k e, s.cache k = some e → ∃ op start, P.key op = k ∧
    s.reads e.reader = .returned op start e.value e.instants (.put e.storedAt)
  cleared : ∀ w k d, (k, d) ∈ (s.writes w).deletions → d < s.now ∧ ∀ e, s.cache k = some e → d < e.storedAt
  write : ∀ w, WriteOk P s.now (s.writes w)
  read : ∀ r, ReadOk P s r (s.reads r)

variable {P}

omit [DecidableEq K] in
theorem Inv.start (server : S) : Inv P (.start server : System K R W Q A V S) where
  entry _ _ h := by cases h
  cleared _ _ _ h := by cases h
  write _ := trivial
  read _ := trivial

omit [DecidableEq K] in
theorem WriteOk.mono {now now' : Nat} (h : now ≤ now') {write : Write K W} (hw : WriteOk P now write) :
    WriteOk P now' write := by
  cases write with
  | applied => exact ⟨Nat.lt_of_lt_of_le hw.1 h, hw.2⟩
  | _ => exact hw

theorem PutSince.step (h : Step P s s') {r : Nat} {op : R} {start : Nat} {value : V} {instants : List Nat}
    (hstart : start < s.now)
    (hput : PutSince P s r op start value instants) : PutSince P s' r op start value instants := by
  obtain ⟨r', op', start', storedAt, hne, hkey, hread, hlate⟩ := hput
  refine ⟨r', op', start', storedAt, hne, hkey, h.reads_returned hread, ?_⟩
  intro w wop effect deletions finish d hw hfinish hd
  rcases h.writes_returned hw with hw | hw
  · exact hlate w wop effect deletions finish d hw hfinish hd
  · -- the write returns in this step, and the read had started
    omega

theorem ReadOk.step (h : Step P s s') {r : Nat} {read : Read R Q A V} (hr : ReadOk P s r read) :
    ReadOk P s' r read := by
  have hnow := h.now
  cases read with
  | called => exact Nat.lt_of_lt_of_le hr (by omega)
  | fetching => exact ⟨Nat.lt_of_lt_of_le hr.1 (by omega), hr.2⟩
  | returned op start value instants source =>
    cases source with
    | hit => exact ⟨hr.1, Nat.lt_of_lt_of_le hr.2.1 (by omega), hr.2.2.step h hr.2.1⟩
    | _ => exact ⟨Nat.lt_of_lt_of_le hr.1 (by omega), hr.2⟩
  | _ => trivial

/-- An entry is an old one, or put in this step. -/
theorem Step.cache (h : Step P s s') {k : K} {e : Entry V} (he : s'.cache k = some e) :
    s.cache k = some e ∨ e.storedAt = s.now ∧ ∃ op start, P.key op = k ∧
      s'.reads e.reader = .returned op start e.value e.instants (.put e.storedAt) := by
  have hdrop : ∀ {k' : K}, Function.update s.cache k' none k = some e → s.cache k = some e := by
    intro k' he
    by_cases hk : k = k'
    · rw [hk, Function.update_self] at he
      cases he
    · rwa [Function.update_of_ne hk] at he
  cases h with
  | @put r op start value instants henabled hread =>
    change Function.update s.cache (P.key op) (some ⟨value, instants, r, s.now⟩) k = some e at he
    by_cases hk : k = P.key op
    · subst hk
      rw [Function.update_self] at he
      cases he
      exact .inr ⟨rfl, op, start, rfl, Function.update_self ..⟩
    · rw [Function.update_of_ne hk] at he
      exact .inl he
  | expire | delete => exact .inl (hdrop he)
  | _ => exact .inl he

/-- A deletion is an old one, or made in this step. -/
theorem Step.deletions (h : Step P s s') {w : Nat} {k : K} {d : Nat} (hd : (k, d) ∈ (s'.writes w).deletions) :
    (k, d) ∈ (s.writes w).deletions ∨ d = s.now ∧ s'.cache k = none := by
  have hset : ∀ {w' : Nat} {write : Write K W}, (k, d) ∈ (Function.update s.writes w' write w).deletions →
      (k, d) ∈ (s.writes w).deletions ∨ w = w' ∧ (k, d) ∈ write.deletions := by
    intro w' write h
    by_cases hw : w = w'
    · subst hw
      rw [Function.update_self] at h
      exact .inr ⟨rfl, h⟩
    · rw [Function.update_of_ne hw] at h
      exact .inl h
  cases h with
  | write | apply | refuse =>
    rcases hset hd with h | ⟨-, h⟩
    · exact .inl h
    · cases h
  | @delete w' op effect k' left deletions hwrite =>
    rcases hset hd with h | ⟨rfl, h⟩
    · exact .inl h
    · rcases List.mem_append.1 h with h | h
      · rw [hwrite]
        exact .inl h
      · cases List.mem_singleton.1 h
        exact .inr ⟨rfl, Function.update_self ..⟩
  | @finish w' op effect deletions hwrite =>
    rcases hset hd with h | ⟨rfl, h⟩
    · exact .inl h
    · rw [hwrite]
      exact .inl h
  | _ => exact .inl hd

/-- What a step leaves of the writes. -/
theorem Inv.writes (hs : Inv P s) (h : Step P s s') (w : Nat) : WriteOk P s'.now (s'.writes w) := by
  have hnow : s.now ≤ s'.now := by rw [h.now]; exact Nat.le_succ _
  have hset : ∀ {w' : Nat} {write : Write K W}, WriteOk P s'.now write →
      WriteOk P s'.now (Function.update s.writes w' write w) := by
    intro w' write hok
    by_cases hw : w = w'
    · subst hw
      rw [Function.update_self]
      exact hok
    · rw [Function.update_of_ne hw]
      exact (hs.write w).mono hnow
  cases h with
  | write | refuse => exact hset trivial
  | @apply w' op server hwrite =>
    refine hset ⟨Nat.lt_succ_self _, fun henabled k hk => .inl ?_⟩
    rw [if_pos henabled]
    exact hk
  | @delete w' op effect k' left deletions hwrite =>
    have hok := hs.write w'
    rw [hwrite] at hok
    refine hset ⟨Nat.lt_succ_of_lt hok.1, fun henabled k hk => ?_⟩
    rcases hok.2 henabled k hk with hleft | ⟨d, hd⟩
    · rcases List.mem_cons.1 hleft with rfl | hleft
      · exact .inr ⟨s.now, List.mem_append_right _ (List.mem_singleton_self _)⟩
      · exact .inl hleft
    · exact .inr ⟨d, List.mem_append_left _ hd⟩
  | @finish w' op effect deletions hwrite =>
    have hok := hs.write w'
    rw [hwrite] at hok
    refine hset ⟨hok.1, fun henabled k hk => ?_⟩
    rcases hok.2 henabled k hk with hleft | hd
    · cases hleft
    · exact hd
  | _ => exact (hs.write w).mono hnow

omit [DecidableEq K] in
/-- What a hit finds was put by another reader, after the deletions of the writes that had returned. -/
theorem Inv.hit (hs : Inv P s) {r : Nat} {op : R} {start : Nat} {e : Entry V} (hr : s.reads r = .called op start)
    (he : s.cache (P.key op) = some e) : PutSince P s r op start e.value e.instants := by
  obtain ⟨op', start', hkey, hread⟩ := hs.entry _ e he
  refine ⟨e.reader, op', start', e.storedAt, ?_, hkey, hread, ?_⟩
  · intro h
    rw [h, hr] at hread
    cases hread
  · intro w wop effect deletions finish d hw _ hd
    refine (hs.cleared w (P.key op) d ?_).2 e he
    rw [hw]
    exact hd

/-- What a step leaves of the reads. -/
theorem Inv.reads (hs : Inv P s) (h : Step P s s') (r : Nat) : ReadOk P s' r (s'.reads r) := by
  have hold : ReadOk P s' r (s.reads r) := (hs.read r).step h
  have hset : ∀ {r' : Nat} {read : Read R Q A V}, (r = r' → ReadOk P s' r read) →
      ReadOk P s' r (Function.update s.reads r' read r) := by
    intro r' read hok
    by_cases hr : r = r'
    · subst hr
      rw [Function.update_self]
      exact hok rfl
    · rw [Function.update_of_ne hr]
      exact hold
  have hstep := h
  cases h with
  | call => exact hset fun _ => Nat.lt_succ_self _
  | bypass r' _ hread | miss r' _ hread =>
    refine hset fun hr => ?_
    subst hr
    rw [hread] at hold
    exact ⟨hold, nofun⟩
  | @hit r' op start e henabled hread hentry =>
    refine hset fun hr => ?_
    subst hr
    have hstart := hs.read r
    rw [hread] at hold hstart
    exact ⟨henabled, hold, (hs.hit hread hentry).step hstep hstart⟩
  | @ask r' op start request next instants hread =>
    refine hset fun hr => ?_
    subst hr
    have hstart := hs.read r
    rw [hread] at hold hstart
    refine ⟨hold.1, fun t ht => ?_⟩
    rcases List.mem_append.1 ht with ht | ht
    · exact hold.2 t ht
    · rw [List.mem_singleton.1 ht]
      exact hstart.1
  | raise => exact hset fun _ => trivial
  | direct r' _ hread | put r' _ hread =>
    refine hset fun hr => ?_
    subst hr
    rw [hread] at hold
    exact hold
  | _ => exact hold

theorem Inv.step (hs : Inv P s) (h : Step P s s') : Inv P s' where
  entry k e he := by
    rcases h.cache he with he | ⟨-, hput⟩
    · obtain ⟨op, start, hkey, hread⟩ := hs.entry k e he
      exact ⟨op, start, hkey, h.reads_returned hread⟩
    · exact hput
  cleared w k d hd := by
    have hnow := h.now
    rcases h.deletions hd with hd | ⟨rfl, hnone⟩
    · obtain ⟨hlt, hbefore⟩ := hs.cleared w k d hd
      refine ⟨by omega, fun e he => ?_⟩
      rcases h.cache he with he | ⟨hstored, -⟩
      · exact hbefore e he
      · omega
    · refine ⟨by omega, fun e he => ?_⟩
      rw [hnone] at he
      cases he
  write := hs.writes h
  read := hs.reads h

theorem Reachable.inv (h : Reachable P s) : Inv P s := by
  obtain ⟨server, hsteps⟩ := h
  induction hsteps with
  | refl => exact Inv.start server
  | tail _ step ih => exact ih.step step

/-- **A read that gets data older than a write that had returned** got what another reader had put after
the write's deletion of the key. -/
theorem stale_read (h : Reachable P s) {w r : Nat} {wop : W} {effect : Nat} {deletions : List (K × Nat)} {finish : Nat}
    {op : R} {start : Nat} {value : V} {instants : List Nat} {source : Source}
    (hwrite : s.writes w = .returned wop effect deletions finish)
    (hread : s.reads r = .returned op start value instants source) (hafter : finish < start)
    (hkey : P.key op ∈ P.invalidated wop) {t : Nat} (ht : t ∈ instants) (hold : t < effect) :
    ∃ r' op' start' storedAt d, r' ≠ r ∧ P.key op' = P.key op ∧
      s.reads r' = .returned op' start' value instants (.put storedAt) ∧ (P.key op, d) ∈ deletions ∧ d < storedAt := by
  have hs := h.inv
  have hw := hs.write w
  have hr := hs.read r
  rw [hwrite] at hw
  rw [hread] at hr
  cases source with
  | hit =>
    obtain ⟨henabled, -, r', op', start', storedAt, hne, hkey', hput, hlate⟩ := hr
    obtain ⟨d, hd⟩ := hw.2 henabled _ hkey
    exact ⟨r', op', start', storedAt, d, hne, hkey', hput, hd, hlate w wop effect deletions finish d hwrite hafter hd⟩
  | _ =>
    -- what a read fetches itself is newer than its start
    have := hr.2 t ht
    have := hw.1
    omega

end CacheAside
