import SaasFoundation.Lib.IsoDate
import SaasFoundation.Vestibulum.SignIn.Requests

/-!
# The send limiters

`rate-limit.ts`, `daily-cap.ts` and `ip-rate-limit.ts` share one table and
one conditional counter update; they differ in the name that is hashed to
the bucket's key. The name is kept apart from its digest here: two buckets
are the same row exactly when their digests are equal.
-/

namespace SaasFoundation.Vestibulum.SignIn

open Lib Lib.Text

def rateLimitWindowMs : Int := 15 * 60 * 1000
def defaultSendsPerWindow : Int := 3
def defaultSendsPerDay : Int := 20
def defaultLoginsPerWindow : Int := 10
def dayMs : Int := 24 * 60 * 60 * 1000

/-- `Math.floor(nowMs / windowMs) * windowMs`. -/
def startOf (windowMs nowMs : Int) : Int := nowMs / windowMs * windowMs

/-- `utcDate`; `none` is the `RangeError` of an invalid date. -/
def utcDate (nowMs : Int) : Option String :=
  (IsoDate.toIsoString nowMs).map (fun s => String.ofList (s.take 10))

/-- What a bucket counts: mails to an address in a window, challenges for
an address on a date, logins from an IP in a window. -/
inductive BucketName where
  | window (email : String) (windowStart : Int)
  | dailyCap (address date : String)
  | loginIp (ip : String) (windowStart : Int)
deriving DecidableEq, Repr

/-- The text that is hashed. -/
def BucketName.text (rt : Runtime) : BucketName → String
  | .window email ws => "window:" ++ rt.toLowerCase email ++ "#" ++ toString ws
  | .dailyCap address date => "daily-cap:" ++ rt.toLowerCase address ++ "#" ++ date
  | .loginIp ip ws => "login-ip:" ++ ip ++ "#" ++ toString ws

/-- The row's key: the mail limiters hash under the secret, the login
limiter without. -/
def BucketName.bucketId (rt : Runtime) (hmacKey : String) (b : BucketName) : String :=
  match b with
  | .window _ _ => rt.hmacSha256Hex hmacKey (b.text rt)
  | .dailyCap _ _ => rt.hmacSha256Hex hmacKey (b.text rt)
  | .loginIp _ _ => rt.sha256Hex (b.text rt)

/-- The update the three limiters send: `true` while there is room, `false`
once the condition fails, any other error propagates. -/
def consumeCounter (u : CounterUpdate) : Handler (Except SdkError Bool) := do
  let reply : Except SdkError Unit ← request (.updateCounter u)
  match reply with
  | .ok () => pure (.ok true)
  | .error .conditionalCheckFailed => pure (.ok false)
  | .error e => pure (.error e)

/-- The window limiters: the row outlives its window by a minute. -/
def windowUpdate (bucketId : String) (limit : Option Int) (windowMs nowMs : Int) :
    CounterUpdate where
  bucketId := bucketId
  limit := limit
  windowStart := some (startOf windowMs nowMs)
  expiresAt := (startOf windowMs nowMs + windowMs) / 1000 + 60

def rateLimitUpdate (rt : Runtime) (email hmacKey : String) (limit : Option Int)
    (nowMs : Int) : CounterUpdate :=
  windowUpdate
    ((BucketName.window email (startOf rateLimitWindowMs nowMs)).bucketId rt hmacKey)
    limit rateLimitWindowMs nowMs

def tryConsumeRateLimit (rt : Runtime) (email hmacKey : String) (limit : Option Int)
    (nowMs : Int) : Handler (Except SdkError Bool) :=
  consumeCounter (rateLimitUpdate rt email hmacKey limit nowMs)

def ipRateLimitUpdate (rt : Runtime) (ip : String) (limit : Option Int) (nowMs : Int) :
    CounterUpdate :=
  windowUpdate ((BucketName.loginIp ip (startOf rateLimitWindowMs nowMs)).bucketId rt "")
    limit rateLimitWindowMs nowMs

def tryConsumeIpRateLimit (rt : Runtime) (ip : String) (limit : Option Int) (nowMs : Int) :
    Handler (Except SdkError Bool) :=
  consumeCounter (ipRateLimitUpdate rt ip limit nowMs)

/-- The daily cap: no window start, and an hour past the end of the day. -/
def dailyCapUpdate (rt : Runtime) (address hmacKey date : String) (limit : Int)
    (nowMs : Int) : CounterUpdate where
  bucketId := (BucketName.dailyCap address date).bucketId rt hmacKey
  limit := some limit
  windowStart := none
  expiresAt := (startOf dayMs nowMs + dayMs) / 1000 + 3600

def tryConsumeDailyCap (rt : Runtime) (address hmacKey : String) (limit nowMs : Int) :
    Handler (Except SdkError Bool) :=
  match utcDate nowMs with
  | none => pure (.error .other)
  | some date => consumeCounter (dailyCapUpdate rt address hmacKey date limit nowMs)

/-- A counter is asked once, and `true` is an update that went through. -/
theorem finishes_consumeCounter {u : CounterUpdate} {es : List (Event Request Reply)}
    {r : Except SdkError Bool} (h : (consumeCounter u).Finishes es r) :
    ∃ reply, es = [⟨.updateCounter u, reply⟩] ∧ (r = .ok true → reply = .ok ()) := by
  simp only [consumeCounter, Prog.call_bind, Prog.finishes_ask] at h
  obtain ⟨reply, fs, rfl, h⟩ := h
  split at h <;> simp only [Prog.pure_def, Prog.finishes_ret] at h <;> obtain ⟨rfl, rfl⟩ := h
  · exact ⟨_, rfl, fun _ => rfl⟩
  · exact ⟨_, rfl, fun h => by cases h⟩
  · exact ⟨_, rfl, fun h => by cases h⟩

end SaasFoundation.Vestibulum.SignIn
