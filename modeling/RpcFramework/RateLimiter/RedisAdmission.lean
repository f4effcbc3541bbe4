import RpcFramework.Protocol.Messages
import RpcFramework.RateLimiter.TokenBucket

/-!
# Admission through Redis

`RedisTokenBucket` extends the local bucket.  `allow` asks the server to run the
script under its hash, loads the script again when the server does not know the
hash, and goes to a second local bucket when the server does not reply.  It calls
itself after both, so how many commands it sends depends on the replies.

The replies are a stream: the reply to the `n`-th command of the call, or none when
the connection is lost.  The clock is read anew at each attempt.  A fuel counts the
attempts.
-/

namespace RpcFramework

/-- `redisReply`; the remaining types carry nothing that is read. -/
inductive Reply where
  | integer (value : Int)
  | string (str : Bytes)
  | error (str : Bytes)
  | other
  deriving DecidableEq

/-- An error that contains `NOSCRIPT`. -/
def Reply.noScript : Reply → Bool
  | .error str => decide (text "NOSCRIPT" <:+: str)
  | _ => false

inductive Command where
  | evalSha (sha keyPrefix : Bytes) (rate capacity : ℚ) (nowMs : Int)
  | scriptLoad
  deriving DecidableEq

/-- `connected` tells whether there is a `redisCtx_`. -/
structure RedisTokenBucket where
  base : TokenBucket
  keyPrefix : Bytes
  connected : Bool
  luaSha : Bytes
  localRate : ℚ
  localCapacity : ℚ
  localTokens : ℚ
  localLastRefill : ℚ
  fallback : Bool
  deriving DecidableEq

namespace RedisTokenBucket

/-- Only a string is taken as the hash of the script. -/
def loadedSha (luaSha : Bytes) : Option Reply → Bytes
  | some (.string str) => str
  | _ => luaSha

def connectRedis (b : RedisTokenBucket) (connects : Bool) : RedisTokenBucket :=
  if connects then { b with connected := true }
  else { b with connected := false, fallback := true }

/-- The constructor, with the outcome of the connect and the reply to `SCRIPT LOAD`. -/
def new (connects : Bool) (loadReply : Option Reply) (keyPrefix : Bytes)
    (rate capacity now : ℚ) : RedisTokenBucket :=
  let b : RedisTokenBucket :=
    { base := TokenBucket.new rate capacity now
      keyPrefix := keyPrefix
      connected := false
      luaSha := []
      localRate := rate
      localCapacity := capacity
      localTokens := capacity
      localLastRefill := now
      fallback := false }
  let b := b.connectRedis connects
  if b.connected then { b with luaSha := loadedSha b.luaSha loadReply } else b

def localRefill (b : RedisTokenBucket) (now : ℚ) : RedisTokenBucket :=
  let elapsed := now - b.localLastRefill
  let tokens := b.localTokens + elapsed * b.localRate
  { b with
    localTokens := if b.localCapacity < tokens then b.localCapacity else tokens
    localLastRefill := now }

/-- The path of `allow` that does not use the server. -/
def allowLocal (b : RedisTokenBucket) (now : ℚ) : Bool × RedisTokenBucket :=
  let b := b.localRefill now
  if 1 ≤ b.localTokens then (true, { b with localTokens := b.localTokens - 1 }) else (false, b)

def setRate (b : RedisTokenBucket) (rate capacity now : ℚ) : RedisTokenBucket :=
  { b with
    base := b.base.setRate rate capacity now
    localCapacity := if 0 ≤ capacity then capacity else b.localCapacity
    localRate := rate }

/-- `duration_cast` to milliseconds cuts the fraction off. -/
def milliseconds (now : ℚ) : Int := (now * 1000).num.tdiv (now * 1000).den

/-- What `allow` returns, the bucket it leaves and the commands it has sent. -/
structure Admission where
  result : Bool
  bucket : RedisTokenBucket
  commands : List Command

def Admission.after (sent : List Command) (admission : Admission) : Admission :=
  { admission with commands := sent ++ admission.commands }

/-- `sent` commands of the call have been sent before. -/
def allow (clock : Nat → ℚ) (replies : Nat → Option Reply) :
    (fuel sent : Nat) → RedisTokenBucket → Option Admission
  | 0, _, _ => none
  | fuel + 1, sent, b =>
      if b.fallback || !b.connected then
        let (result, b) := b.allowLocal (clock sent)
        some ⟨result, b, []⟩
      else
        let command :=
          .evalSha b.luaSha b.keyPrefix b.base.rate b.base.capacity (milliseconds (clock sent))
        match replies sent with
        | none =>
            -- the connection is lost: the next attempt is local
            (allow clock replies fuel (sent + 1)
              { b with fallback := true, connected := false }).map (.after [command])
        | some reply =>
            if reply.noScript then
              (allow clock replies fuel (sent + 2)
                { b with luaSha := loadedSha b.luaSha (replies (sent + 1)) }).map
                  (.after [command, .scriptLoad])
            else some ⟨decide (reply = .integer 1), b, [command]⟩

/-! ## How many commands are sent -/

/-- The server does not know the script when it executes the `n`-th command. -/
def noScriptAt (replies : Nat → Option Reply) (n : Nat) : Bool := (replies n).any Reply.noScript

section Attempts

variable {clock : Nat → ℚ} {replies : Nat → Option Reply} {fuel sent : Nat} {b : RedisTokenBucket}

theorem allow_offline (offline : (b.fallback || !b.connected) = true) :
    allow clock replies (fuel + 1) sent b =
      some ⟨(b.allowLocal (clock sent)).1, (b.allowLocal (clock sent)).2, []⟩ := by
  rw [allow, if_pos offline]

/-- Without `NOSCRIPT` there is at most one command. -/
theorem allow_answered (answered : noScriptAt replies sent = false) :
    ∃ admission, allow clock replies (fuel + 2) sent b = some admission ∧
      admission.commands.length ≤ 1 := by
  by_cases offline : (b.fallback || !b.connected) = true
  · exact ⟨_, allow_offline offline, Nat.zero_le _⟩
  · rw [allow, if_neg offline]
    unfold noScriptAt at answered
    cases replied : replies sent with
    | none =>
        dsimp only
        rw [allow_offline rfl]
        exact ⟨_, rfl, Nat.le_refl _⟩
    | some reply =>
        rw [replied, Option.any_some] at answered
        dsimp only
        rw [answered]
        exact ⟨_, rfl, Nat.le_refl _⟩

/-- After `NOSCRIPT` and the loading the same bucket tries again, with another hash. -/
theorem allow_noScript (online : (b.fallback || !b.connected) = false)
    (unknown : noScriptAt replies sent = true) :
    ∃ next commands, (next.fallback || !next.connected) = false ∧ commands.length = 2 ∧
      allow clock replies (fuel + 1) sent b =
        (allow clock replies fuel (sent + 2) next).map (.after commands) := by
  unfold noScriptAt at unknown
  cases replied : replies sent with
  | none =>
      rw [replied] at unknown
      cases unknown
  | some reply =>
      rw [replied, Option.any_some] at unknown
      refine ⟨{ b with luaSha := loadedSha b.luaSha (replies (sent + 1)) },
        [.evalSha b.luaSha b.keyPrefix b.base.rate b.base.capacity (milliseconds (clock sent)),
          .scriptLoad], online, rfl, ?_⟩
      rw [allow, online, if_neg Bool.false_ne_true, replied]
      exact if_pos unknown

/-- An answer other than `NOSCRIPT` ends the call, if it has not ended before. -/
theorem allow_of_answer {n : Nat} (answered : noScriptAt replies (sent + 2 * n) = false) :
    ∃ admission, allow clock replies (n + 2) sent b = some admission ∧
      admission.commands.length ≤ 2 * n + 1 := by
  induction n generalizing sent b with
  | zero => exact allow_answered answered
  | succ n ih =>
      by_cases unknown : noScriptAt replies sent = true
      · by_cases offline : (b.fallback || !b.connected) = true
        · exact ⟨_, allow_offline offline, Nat.zero_le _⟩
        · obtain ⟨next, commands, _, two, again⟩ :=
            @allow_noScript clock replies (n + 2) sent b
              (Bool.eq_false_of_not_eq_true offline) unknown
          have later : noScriptAt replies (sent + 2 + 2 * n) = false := by
            rw [Nat.add_assoc, Nat.add_comm 2]
            exact answered
          obtain ⟨admission, returned, few⟩ := @ih (sent + 2) next later
          refine ⟨admission.after commands, by rw [again, returned, Option.map_some], ?_⟩
          rw [Admission.after, List.length_append, two]
          omega
      · obtain ⟨admission, returned, few⟩ := allow_answered (Bool.eq_false_of_not_eq_true unknown)
        exact ⟨admission, returned, few.trans (Nat.le_add_left 1 _)⟩

/-- As long as the script is not known, every attempt ends in another one. -/
theorem allow_unanswered (online : (b.fallback || !b.connected) = false)
    (unknown : ∀ n, noScriptAt replies (sent + 2 * n) = true) :
    allow clock replies fuel sent b = none := by
  induction fuel generalizing sent b with
  | zero => rfl
  | succ fuel ih =>
      obtain ⟨next, commands, stillOnline, _, again⟩ :=
        @allow_noScript clock replies fuel sent b online (unknown 0)
      rw [again, ih stillOnline, Option.map_none]
      intro n
      rw [Nat.add_assoc, Nat.add_comm 2]
      exact unknown (n + 1)

end Attempts

/--
`allow` returns exactly when it does not use the server, or the server answers some
attempt other than by `NOSCRIPT`; before each attempt but the first the script is
loaded.
-/
theorem allow_returns_iff (clock : Nat → ℚ) (replies : Nat → Option Reply) (b : RedisTokenBucket) :
    (∃ fuel admission, allow clock replies fuel 0 b = some admission) ↔
      b.fallback = true ∨ b.connected = false ∨ ∃ n, noScriptAt replies (2 * n) = false := by
  constructor
  · rintro ⟨fuel, admission, returned⟩
    by_contra stuck
    simp only [not_or, not_exists, Bool.not_eq_true, Bool.not_eq_false] at stuck
    obtain ⟨noFallback, connected, unknown⟩ := stuck
    have online : (b.fallback || !b.connected) = false := by
      rw [noFallback, connected]
      rfl
    rw [allow_unanswered online fun n => (Nat.zero_add (2 * n)).symm ▸ unknown n] at returned
    cases returned
  · rintro (fallback | disconnected | ⟨n, answered⟩)
    · exact ⟨1, _, allow_offline (by rw [fallback]; rfl)⟩
    · exact ⟨1, _, allow_offline (by rw [disconnected, Bool.not_false, Bool.or_true])⟩
    · obtain ⟨admission, returned, _⟩ :=
        @allow_of_answer clock replies 0 b n ((Nat.zero_add (2 * n)).symm ▸ answered)
      exact ⟨n + 2, admission, returned⟩

/-- A server that may run scripts for this client but refuses to load one. -/
def refusesLoad (n : Nat) : Option Reply :=
  if n % 2 = 0 then some (.error (text "NOSCRIPT")) else some (.error (text "NOPERM"))

theorem allow_never_returns :
    ¬ ∃ fuel admission,
      allow (fun _ => 0) refusesLoad fuel 0
        (new true (some (.error (text "NOPERM"))) (text "rpc_rl") 1 1 0) = some admission := by
  rintro ⟨fuel, admission, returned⟩
  have unknown : ∀ n, noScriptAt refusesLoad (0 + 2 * n) = true := by
    intro n
    rw [Nat.zero_add, noScriptAt, refusesLoad, if_pos (Nat.mul_mod_right 2 n)]
    decide +kernel
  rw [allow_unanswered rfl unknown] at returned
  cases returned

end RedisTokenBucket

end RpcFramework
