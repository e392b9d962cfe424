import ReleaseTrain.Publication.Step

/-!
# Waiting for a crate to turn up

A crate that has just been published takes a while to be visible in the registry, and the next one
may depend on it.

* `Policy`: how often to look and how long to wait.
* `poll`: looks until the crate is there or the attempts are used up.
* `waitUntilVisible`: polls and then lets the crate spread.

## The order of waiting and looking

There is a pause before every look, also before the first, and one more after the crate has been
seen, for the copies of the registry to catch up.  If it is never seen there is no such pause: the
release ends there.
-/

namespace ReleaseTrain.Publication

/-- How often to look for a crate, and how long to wait before each look and at the end. -/
structure Policy where
  attempts : Nat
  beforeLook : Number
  settling : Number
  /-- The crate is looked for at least once. -/
  attempts_pos : 0 < attempts := by decide

namespace Policy

/-- A number of seconds with a fraction, which is zero. -/
def seconds (n : Nat) : Number := .binary (.ofInt n)

/-- Five looks five seconds apart, and ten seconds for the crate to spread. -/
def standard : Policy := { attempts := 5, beforeLook := seconds 5, settling := seconds 10 }

/-- The policy with a number of attempts, which may be no number of attempts. -/
def ofNumbers (attempts : Int) (beforeLook settling : Number) : Except Failure Policy :=
  if h : 0 < attempts.toNat then
    .ok { attempts := attempts.toNat, beforeLook, settling, attempts_pos := h }
  else .error (.unusable .noAttempts)

end Policy

/-- Looks for a version of a crate up to `left` more times, and ends with the date at which it was
published. -/
def poll (policy : Policy) (name version : String) : (left : Nat) → Dialogue steps Value
  | 0 => .fail (.absent (.neverSeen name version policy.attempts))
  | left + 1 => do
    pause policy.beforeLook
    let date ← publishedAt name version
    if date.isTruthy then
      say ("[poll]   ✅ крейт " ++ name ++ " доступен (опубликован " ++ date.sentence ++ ")")
      return date
    else if left = 0 then poll policy name version left
    else
      say ("[poll]   пока недоступен (" ++ toString (policy.attempts - left) ++ "/" ++
        toString policy.attempts ++ "), ждём ещё несколько секунд...")
      poll policy name version left

/-- Waits until a version of a crate is visible in the registry, and then until it has spread. -/
def waitUntilVisible (policy : Policy) (name version : String) : Dialogue steps Value := do
  say ("[poll] Ждём, пока крейт " ++ name ++ " " ++ version ++ " станет доступен в реестре...")
  let date ← poll policy name version policy.attempts
  match policy.settling.brief? with
  | none => .fail .tooLarge
  | some seconds =>
    say ("[poll]   ждём ещё " ++ seconds ++ " с, пока версия разойдётся по CDN...")
    pause policy.settling
    return date

end ReleaseTrain.Publication
