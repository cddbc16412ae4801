import SlurmWeb.Lib.Strings
import Mathlib.Data.List.Chain

/-!
# Tokens for slurmrestd (slurmweb/slurmrestd/auth.py)

The agent signs its own tokens, or is given one. A token of its own is kept until a minute before it expires.

| here | there |
| --- | --- |
| `SlurmrestdAuthentifier.init` | `__init__` (:26) |
| `generateToken`, `headers` | `_generate_token` (:75), `headers` (:83) |

The token is signed after its expiration was noted, by a library that is a parameter;
`jwtValidateExpiration` is what that library reads of a token.

* `auto_sound` — in any run, a token that is sent is valid for a minute, or as long as tokens are, and tokens are not
  renewed before.
-/

namespace SlurmWeb.Slurmrestd.Auth

open Strings

inductive Method
  | local | jwt
deriving DecidableEq

inductive JwtMode
  | static | auto
deriving DecidableEq

/-- A token, with the time it is valid to. -/
structure Token where
  text : Str
  exp : Int
deriving DecidableEq

structure SlurmrestdAuthentifier where
  method : Method
  jwtMode : JwtMode
  jwtUser : Str
  jwtLifespan : Int
  jwtToken : Option Token
  expiration : Int

inductive ConfigurationError
  | missingToken
  | invalidToken (message : Str)
  | unableToLoadKey (message : Str)
deriving DecidableEq

/-- `__init__` (:26); the key is the outcome of loading it. -/
def SlurmrestdAuthentifier.init (jwtValidateExpiration : Str → Except Str Int) (method : Method)
    (jwtMode : JwtMode) (jwtUser : Str)
    (jwtKey : Except Str Unit) (jwtLifespan : Int) (jwtToken : Option Str) :
      Except ConfigurationError SlurmrestdAuthentifier :=
  match method, jwtMode with
  | .local, _ => .ok ⟨method, jwtMode, jwtUser, jwtLifespan, none, 0⟩
  | .jwt, .static =>
    match jwtToken.getD [] with
    | [] => .error .missingToken
    | c :: cs =>
      match jwtValidateExpiration (c :: cs) with
      | .error message => .error (.invalidToken message)
      | .ok exp => .ok ⟨method, jwtMode, jwtUser, jwtLifespan, some ⟨c :: cs, exp⟩, exp⟩
  | .jwt, .auto =>
    match jwtKey with
    | .error message => .error (.unableToLoadKey message)
    | .ok () => .ok ⟨method, jwtMode, jwtUser, jwtLifespan, none, 0⟩

/-- The clock as a call reads it: for the expiration of a first token, as that is signed, for the gap, and
for a renewal. -/
structure Readings where
  first : Int
  signed : Int
  gap : Int
  renewal : Int
  signedAgain : Int
  ordered : first ≤ signed ∧ signed ≤ gap ∧ gap ≤ renewal ∧ renewal ≤ signedAgain

/-- What a call does: the headers, and the times at which tokens were generated. -/
structure Answer where
  headers : List (Str × Str)
  token : Option Token
  generated : List Int

/-- Signs a token at a time. -/
abbrev Sign : Type := Int → Token

namespace SlurmrestdAuthentifier

variable (sign : Sign)

/-- `_generate_token` (:75) -/
def generateToken (s : SlurmrestdAuthentifier) (now signed : Int) : SlurmrestdAuthentifier :=
  { s with expiration := now + s.jwtLifespan, jwtToken := some (sign signed) }

/-- The headers of a token. -/
def tokenHeaders (s : SlurmrestdAuthentifier) : List (Str × Str) :=
  [("X-SLURM-USER-NAME".toList, s.jwtUser), ("X-SLURM-USER-TOKEN".toList, (s.jwtToken.map Token.text).getD [])]

/-- The branch of `headers` that generates tokens (:97). -/
def renew (s : SlurmrestdAuthentifier) (r : Readings) : SlurmrestdAuthentifier × List Int :=
  let (s, generated) := if s.jwtToken = none then (s.generateToken sign r.first r.signed, [r.first]) else (s, [])
  if s.expiration - r.gap < 60 then (s.generateToken sign r.renewal r.signedAgain,
    generated ++ [r.renewal]) else (s, generated)

/-- `headers` (:83) -/
def headers (s : SlurmrestdAuthentifier) (r : Readings) : SlurmrestdAuthentifier × Answer :=
  match s.method, s.jwtMode with
  | .local, _ => (s, ⟨[], none, []⟩)
  | .jwt, .static => (s, ⟨s.tokenHeaders, s.jwtToken, []⟩)
  | .jwt, .auto =>
    let (s, generated) := s.renew sign r
    (s, ⟨s.tokenHeaders, s.jwtToken, generated⟩)

/-- The answers of a run of calls. -/
def run (s : SlurmrestdAuthentifier) : List Readings → List (Readings × Answer)
  | [] => []
  | r :: calls => (r, (s.headers sign r).2) :: run (s.headers sign r).1 calls

/-! ## Tokens of its own -/

/-- The token is valid to the noted expiration at least. -/
def Noted (s : SlurmrestdAuthentifier) : Prop := ∀ token ∈ s.jwtToken, s.expiration ≤ token.exp

/-- A token is valid for its lifespan. -/
def Signs (sign : Sign) (lifespan : Int) : Prop := ∀ now, now + lifespan ≤ (sign now).exp

/-- The time of the last generation, where there was one. -/
def last (s : SlurmrestdAuthentifier) : Option Int := s.jwtToken.map fun _ => s.expiration - s.jwtLifespan

/-- A renewal comes after all but the last minute of the lifespan. -/
def Late (lifespan a b : Int) : Prop := a + lifespan - 60 < b

variable {sign}

theorem noted_generate {s : SlurmrestdAuthentifier} (hsign : Signs sign s.jwtLifespan)
    {now signed : Int} (h : now ≤ signed) : (s.generateToken sign now signed).Noted := by
  intro token htoken
  obtain rfl := Option.some.inj htoken
  have := hsign signed
  change now + s.jwtLifespan ≤ (sign signed).exp
  omega

/-- What generating tokens does: each comes late after the one before. -/
structure Renewed (s s' : SlurmrestdAuthentifier) (generated : List Int) : Prop where
  lifespan : s'.jwtLifespan = s.jwtLifespan
  mode : s'.method = s.method ∧ s'.jwtMode = s.jwtMode
  noted : s'.Noted
  chain : (s.last.toList ++ generated).IsChain (Late s.jwtLifespan)
  last : s'.last = (s.last.toList ++ generated).getLast?

theorem Renewed.refl {s : SlurmrestdAuthentifier} (hnoted : s.Noted) : Renewed s s [] where
  lifespan := rfl
  mode := ⟨rfl, rfl⟩
  noted := hnoted
  chain := by
    rw [List.append_nil]
    cases s.last with
    | none => exact .nil
    | some at' => exact .singleton _
  last := by
    rw [List.append_nil]
    cases s.last <;> rfl

theorem Renewed.trans {s₁ s₂ s₃ : SlurmrestdAuthentifier} {g₁ g₂ : List Int} (h₁ : Renewed s₁ s₂ g₁)
    (h₂ : Renewed s₂ s₃ g₂) : Renewed s₁ s₃ (g₁ ++ g₂) where
  lifespan := h₂.lifespan.trans h₁.lifespan
  mode := ⟨h₂.mode.1.trans h₁.mode.1, h₂.mode.2.trans h₁.mode.2⟩
  noted := h₂.noted
  chain := by
    have hchain := h₂.chain
    rw [h₁.lifespan, h₁.last] at hchain
    rw [← List.append_assoc]
    refine List.isChain_append.2 ⟨h₁.chain, (List.isChain_append.1 hchain).2.1, ?_⟩
    intro x hx y hy
    exact (List.isChain_append.1 hchain).2.2 x (by rw [Option.mem_def.1 hx]; rfl) y hy
  last := by
    rw [h₂.last, h₁.last, ← List.append_assoc]
    generalize s₁.last.toList ++ g₁ = front
    rw [List.getLast?_append, @List.getLast?_append _ front]
    cases front.getLast? <;> rfl

/-- A token is generated where none is, or late. -/
theorem renewed_generate {s : SlurmrestdAuthentifier} (hsign : Signs sign s.jwtLifespan)
    {now signed : Int} (h : now ≤ signed)
    (hlate : ∀ at' ∈ s.last, Late s.jwtLifespan at' now) : Renewed s (s.generateToken sign now signed) [now] where
  lifespan := rfl
  mode := ⟨rfl, rfl⟩
  noted := noted_generate hsign h
  chain := by
    cases hlast : s.last with
    | none => exact .singleton _
    | some at' => exact .cons_cons (hlate at' hlast) (.singleton _)
  last := by
    have hnow : (s.generateToken sign now signed).last = some now := by
      change some (now + s.jwtLifespan - s.jwtLifespan) = some now
      rw [Int.add_sub_cancel]
    rw [hnow, List.getLast?_concat]

theorem last_eq {s : SlurmrestdAuthentifier} {at' : Int} (h : at' ∈ s.last) : at' + s.jwtLifespan = s.expiration := by
  obtain ⟨token, -, rfl⟩ := Option.map_eq_some_iff.1 h
  omega

/-- What one call does. -/
theorem renew_renewed {s : SlurmrestdAuthentifier} (hsign : Signs sign s.jwtLifespan)
    (hnoted : s.Noted) (r : Readings) : Renewed s (s.renew sign r).1 (s.renew sign r).2 ∧
      ∃ token, (s.renew sign r).1.jwtToken = some token ∧ r.gap + min 60 s.jwtLifespan ≤ token.exp := by
  obtain ⟨hfirst, hsigned, hgap, hrenewal⟩ := r.ordered
  obtain ⟨s₁, g₁, hensure, hrenewed, hsome⟩ :
      ∃ s₁ g₁, (if s.jwtToken = none then (s.generateToken sign r.first r.signed, [r.first]) else (s, [])) =
      (s₁, g₁) ∧ Renewed s s₁ g₁ ∧ ∃ token, s₁.jwtToken = some token := by
    by_cases hnone : s.jwtToken = none
    · refine ⟨_, _, if_pos hnone, renewed_generate hsign hfirst fun at' hat => ?_, _, rfl⟩
      rw [last, hnone] at hat
      cases hat
    · exact ⟨_, _, if_neg hnone, .refl hnoted, Option.ne_none_iff_exists'.1 hnone⟩
  unfold renew
  rw [hensure]
  dsimp only
  by_cases hshort : s₁.expiration - r.gap < 60
  · rw [if_pos hshort]
    have hsign₁ : Signs sign s₁.jwtLifespan := hrenewed.lifespan ▸ hsign
    refine ⟨hrenewed.trans (renewed_generate hsign₁ hrenewal fun at' hat => ?_), _, rfl, ?_⟩
    · have := last_eq hat
      unfold Late
      omega
    · have := hsign r.signedAgain
      omega
  · rw [if_neg hshort]
    obtain ⟨token, htoken⟩ := hsome
    refine ⟨hrenewed, token, htoken, ?_⟩
    have := hrenewed.noted token htoken
    omega

/-- The times of a run at which tokens were generated. -/
def generated (answers : List (Readings × Answer)) : List Int := answers.flatMap fun answer => answer.2.generated

theorem run_renewed : ∀ (calls : List Readings) {s : SlurmrestdAuthentifier},
    Signs sign s.jwtLifespan → s.method = .jwt → s.jwtMode = .auto → s.Noted →
    (∀ answer ∈ s.run sign calls, ∃ token, answer.2.token = some token ∧
      answer.1.gap + min 60 s.jwtLifespan ≤ token.exp) ∧
      (s.last.toList ++ generated (s.run sign calls)).IsChain (Late s.jwtLifespan)
  | [], s, _, _, _, hnoted => ⟨nofun, (Renewed.refl hnoted).chain⟩
  | r :: calls, s, hsign, hmethod, hmode, hnoted => by
    obtain ⟨hrenewed, token, htoken, hvalid⟩ := renew_renewed hsign hnoted r
    have hheaders : s.headers sign r = ((s.renew sign r).1,
        ⟨(s.renew sign r).1.tokenHeaders, (s.renew sign r).1.jwtToken, (s.renew sign r).2⟩) := by
      unfold headers
      rw [hmethod, hmode]
    obtain ⟨hrest, hchain⟩ := run_renewed calls (hrenewed.lifespan ▸ hsign) (hrenewed.mode.1.trans hmethod)
      (hrenewed.mode.2.trans hmode) hrenewed.noted
    rw [hrenewed.lifespan] at hrest hchain
    rw [run, hheaders]
    refine ⟨fun answer hanswer => ?_, ?_⟩
    · rcases List.mem_cons.1 hanswer with rfl | hanswer
      · exact ⟨token, htoken, hvalid⟩
      · exact hrest answer hanswer
    · rw [hrenewed.last] at hchain
      rw [generated, List.flatMap_cons, ← List.append_assoc]
      refine List.isChain_append.2 ⟨hrenewed.chain, (List.isChain_append.1 hchain).2.1, ?_⟩
      intro x hx y hy
      exact (List.isChain_append.1 hchain).2.2 x (by rw [Option.mem_def.1 hx]; rfl) y hy

/-- **Automatic mode**: every token sent is valid for another minute, or for the whole lifespan when that is
shorter, and none is replaced early. -/
theorem auto_sound {jwtValidateExpiration : Str → Except Str Int} {jwtUser : Str}
    {jwtKey : Except Str Unit} {jwtLifespan : Int}
    {jwtToken : Option Str} {s : SlurmrestdAuthentifier} (hsign : Signs sign jwtLifespan)
    (h : init jwtValidateExpiration .jwt .auto jwtUser jwtKey jwtLifespan jwtToken = .ok s) (calls : List Readings) :
    (∀ answer ∈ s.run sign calls, ∃ token, answer.2.token = some token ∧
      answer.1.gap + min 60 jwtLifespan ≤ token.exp) ∧
      (generated (s.run sign calls)).IsChain (Late jwtLifespan) := by
  have hs : s = ⟨.jwt, .auto, jwtUser, jwtLifespan, none, 0⟩ := by
    unfold init at h
    dsimp only at h
    split at h
    · cases h
    · exact (Except.ok.inj h).symm
  subst hs
  exact run_renewed calls hsign rfl rfl nofun

/-- Tokens of an hour, asked for twice within the hour and once after. -/
def hourReadings (now : Int) : Readings := ⟨now, now, now, now, now, by omega⟩

def hourAuthentifier : SlurmrestdAuthentifier := ⟨.jwt, .auto, "slurm", 3600, none, 0⟩

theorem auto_sound_hour :
    (∀ answer ∈ hourAuthentifier.run (fun now => ⟨"token", now + 3600⟩) [hourReadings 0,
      hourReadings 1800, hourReadings 7200],
      ∃ token, answer.2.token = some token ∧ answer.1.gap + min 60 3600 ≤ token.exp) ∧
    (generated (hourAuthentifier.run (fun now => ⟨"token", now + 3600⟩)
      [hourReadings 0, hourReadings 1800, hourReadings 7200])).IsChain (Late 3600) :=
  @auto_sound (fun now => ⟨"token", now + 3600⟩) (fun _ => .error "Not enough segments") "slurm" (.ok ()) 3600
    none hourAuthentifier (fun _ => le_refl _) rfl _

end SlurmrestdAuthentifier

end SlurmWeb.Slurmrestd.Auth
