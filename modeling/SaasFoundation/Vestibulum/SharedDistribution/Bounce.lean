import SaasFoundation.Lib.IsoDate
import SaasFoundation.Vestibulum.SharedDistribution.Triggers

/-!
# The bounce handler

Subscribed to the bounces and complaints of SES. A recipient who is a user
of the pool gets an attribute, anybody else a row of the denylist. A record
that fails does not stop the others; the failures are thrown at the end.
Metrics and log lines are left out.
-/

namespace SaasFoundation.Vestibulum.SharedDistribution.Triggers

open Lib

/-- What a record can fail with. -/
inductive BounceError where
  /-- `JSON.parse`, or a property of something that is no object. -/
  | malformed
  | rangeError
  | pool (e : PoolError)
  | aws (e : SignIn.SdkError)
deriving DecidableEq, Repr

/-- The messages of the SNS records. -/
structure SnsEvent where
  messages : List String
deriving DecidableEq, Repr

def denylistDays : Int := 365

/-- A user gets the attribute, an unknown address a row for a year. -/
def quarantineEmail (email emailHash : String) : Handler (Except BounceError Unit) := do
  let marked : Except PoolError Unit ← request (.quarantineUser email)
  match marked with
  | .ok () => pure (.ok ())
  | .error .userNotFound => do
      let nowMs : Int ← request (.signIn .now)
      let ttlSecs := nowMs / 1000 + denylistDays * 24 * 3600
      let dateMs : Int ← request (.signIn .now)
      match IsoDate.toIsoString dateMs with
      | none => pure (.error .rangeError)
      | some quarantinedAt => do
          let stored : Except SignIn.SdkError Unit ←
            request (.putDenylist emailHash (String.ofList quarantinedAt) ttlSecs)
          match stored with
          | .ok () => pure (.ok ())
          | .error e => pure (.error (.aws e))
  | .error .other => pure (.error (.pool .other))

/-- The recipients in order, up to the first that fails. -/
def quarantineAll (rt : Runtime) (hmacSecret : String) :
    List Json → Handler (Except BounceError Unit)
  | [] => pure (.ok ())
  | recipient :: rest =>
      match recipient.get "emailAddress" with
      | some (.str email) => do
          let done ← quarantineEmail email (hmacEmail rt email hmacSecret)
          match done with
          | .error e => pure (.error e)
          | .ok () => quarantineAll rt hmacSecret rest
      | _ => pure (.error .malformed)

/-- `!value`, for what a field can hold. -/
def falsy : Option Json → Bool
  | none => true
  | some .null => true
  | some (.bool b) => !b
  | some (.num n) => n == 0
  | some (.str s) => s == ""
  | _ => false

/-- The recipients a notification asks to quarantine; `none` where reading
them throws. -/
def affectedRecipients (notification : Json) : Option (List Json) :=
  let kind := match notification.get "notificationType" with
    | none => notification.get "eventType"
    | some .null => notification.get "eventType"
    | some v => some v
  match kind with
  | some (.str "Bounce") =>
      let bounce := notification.get "bounce"
      if falsy bounce then some []
      else
        match (bounce.getD .null).get "bouncedRecipients" with
        | some (.arr recipients) =>
            if Json.asString ((bounce.getD .null).get "bounceType") = some "Permanent" then
              some recipients
            else some []
        | _ => none
  | some (.str "Complaint") =>
      let complaint := notification.get "complaint"
      if falsy complaint then some []
      else
        match (complaint.getD .null).get "complainedRecipients" with
        | some (.arr recipients) => some recipients
        | _ => none
  | _ => some []

def processRecord (rt : Runtime) (hmacSecret message : String) :
    Handler (Except BounceError Unit) :=
  match rt.jsonParse message with
  | none => pure (.error .malformed)
  | some .null => pure (.error .malformed)
  | some notification =>
      match affectedRecipients notification with
      | none => pure (.error .malformed)
      | some recipients => quarantineAll rt hmacSecret recipients

/-- The errors of the records, in order. -/
def processRecords (rt : Runtime) (hmacSecret : String) :
    List String → Handler (List BounceError)
  | [] => pure []
  | message :: rest => do
      let done ← processRecord rt hmacSecret message
      let errors ← processRecords rt hmacSecret rest
      pure (match done with
        | .error e => e :: errors
        | .ok () => errors)

inductive BounceThrown where
  | missingEnv
  | aws (e : SignIn.SdkError)
  | aggregate (errors : List BounceError)
deriving DecidableEq, Repr

def bounceHandler (rt : Runtime) (env : ProcessEnv) (event : SnsEvent) :
    Handler (Except BounceThrown Unit) := do
  let key : Except SignIn.SdkError String ← request (.signIn .resolveEmailHmacKey)
  match key with
  | .error e => pure (.error (.aws e))
  | .ok hmacSecret =>
      if (env.nonEmpty RuntimeEnv.cognitoUserPoolId).isNone ||
          (env.nonEmpty RuntimeEnv.denylistTableName).isNone || hmacSecret = "" then
        pure (.error .missingEnv)
      else do
        let errors ← processRecords rt hmacSecret event.messages
        if errors.isEmpty then pure (.ok ()) else pure (.error (.aggregate errors))

/-! ## What a run of the handler has done -/

section Runs

variable {rt : Runtime} {hmacSecret : String} {es : List (Event Request Reply)}

/-- The address was marked: as a user, or on the denylist. -/
def Marked (rt : Runtime) (hmacSecret email : String) (es : List (Event Request Reply)) : Prop :=
  ⟨.quarantineUser email, .ok ()⟩ ∈ es ∨
  ∃ quarantinedAt expiresAt,
    ⟨.putDenylist (hmacEmail rt email hmacSecret) quarantinedAt expiresAt, .ok ()⟩ ∈ es

theorem Marked.mono {email : String} {fs : List (Event Request Reply)}
    (h : Marked rt hmacSecret email es) (hsub : ∀ e ∈ es, e ∈ fs) : Marked rt hmacSecret email fs := by
  rcases h with huser | ⟨at', expiresAt, hrow⟩
  · exact .inl (hsub _ huser)
  · exact .inr ⟨at', expiresAt, hsub _ hrow⟩

theorem finishes_quarantineEmail {email : String}
    (h : (quarantineEmail email (hmacEmail rt email hmacSecret)).Finishes es (.ok ())) :
    Marked rt hmacSecret email es := by
  simp only [quarantineEmail, Prog.call_bind, Prog.finishes_ask] at h
  obtain ⟨marked, fs, rfl, h⟩ := h
  split at h
  · exact .inl List.mem_cons_self
  · simp only [Prog.finishes_ask] at h
    obtain ⟨nowMs, _, rfl, dateMs, _, rfl, h⟩ := h
    split at h
    · simp only [Prog.pure_def, Prog.finishes_ret] at h
      cases h.2
    · simp only [Prog.finishes_ask] at h
      obtain ⟨stored, _, rfl, h⟩ := h
      split at h
      · exact .inr ⟨_, _, List.mem_cons_of_mem _ (List.mem_cons_of_mem _
          (List.mem_cons_of_mem _ List.mem_cons_self))⟩
      · simp only [Prog.pure_def, Prog.finishes_ret] at h
        cases h.2
  · simp only [Prog.pure_def, Prog.finishes_ret] at h
    cases h.2

theorem finishes_quarantineAll {recipients : List Json}
    (h : (quarantineAll rt hmacSecret recipients).Finishes es (.ok ())) :
    ∀ r ∈ recipients, ∃ email, r.get "emailAddress" = some (.str email) ∧
      Marked rt hmacSecret email es := by
  induction recipients generalizing es with
  | nil => simp
  | cons recipient rest ih =>
      unfold quarantineAll at h
      split at h
      · rename_i email hemail
        obtain ⟨fs, gs, done, rfl, hfirst, h⟩ := Prog.finishes_bind.mp h
        cases done with
        | error e =>
            simp only [Prog.pure_def, Prog.finishes_ret] at h
            cases h.2
        | ok u =>
            intro r hr
            rcases List.mem_cons.mp hr with rfl | hr
            · exact ⟨email, hemail,
                (finishes_quarantineEmail hfirst).mono fun e he => List.mem_append_left _ he⟩
            · obtain ⟨address, haddress, hmarked⟩ := ih h r hr
              exact ⟨address, haddress, hmarked.mono fun e he => List.mem_append_right _ he⟩
      · simp only [Prog.pure_def, Prog.finishes_ret] at h
        cases h.2

/-- The message asks to quarantine the address. -/
def Affects (rt : Runtime) (message email : String) : Prop :=
  ∃ notification recipients, rt.jsonParse message = some notification ∧
    affectedRecipients notification = some recipients ∧
    ∃ r ∈ recipients, r.get "emailAddress" = some (.str email)

theorem finishes_processRecord {message email : String}
    (h : (processRecord rt hmacSecret message).Finishes es (.ok ()))
    (haffects : Affects rt message email) : Marked rt hmacSecret email es := by
  obtain ⟨notification, recipients, hparse, hrecipients, r, hr, hemail⟩ := haffects
  unfold processRecord at h
  rw [hparse] at h
  split at h
  · cases ‹some notification = none›
  · simp only [Prog.pure_def, Prog.finishes_ret] at h
    cases h.2
  · rename_i heq
    cases heq
    rw [hrecipients] at h
    obtain ⟨address, haddress, hmarked⟩ := finishes_quarantineAll h r hr
    rw [hemail] at haddress
    cases haddress
    exact hmarked

theorem finishes_processRecords {messages : List String}
    (h : (processRecords rt hmacSecret messages).Finishes es []) :
    ∀ message ∈ messages, ∀ email, Affects rt message email → Marked rt hmacSecret email es := by
  induction messages generalizing es with
  | nil => simp
  | cons message rest ih =>
      obtain ⟨fs, _, done, rfl, hfirst, h⟩ := Prog.finishes_bind.mp h
      obtain ⟨gs, _, errors, rfl, hrest, h⟩ := Prog.finishes_bind.mp h
      simp only [Prog.pure_def, Prog.finishes_ret] at h
      obtain ⟨rfl, hnone⟩ := h
      cases done with
      | error e => cases hnone
      | ok u =>
          simp only at hnone
          subst hnone
          intro m hm email haffects
          rcases List.mem_cons.mp hm with rfl | hm
          · exact (finishes_processRecord hfirst haffects).mono
              fun e he => List.mem_append_left _ he
          · exact (ih hrest m hm email haffects).mono fun e he => by simp [he]

/-- A handler that returns has marked every address it was told of. -/
theorem finishes_bounceHandler {env : ProcessEnv} {event : SnsEvent}
    (h : (bounceHandler rt env event).Finishes es (.ok ())) :
    ∃ key, ⟨.signIn .resolveEmailHmacKey, .ok key⟩ ∈ es ∧ ∀ message ∈ event.messages, ∀ email,
      Affects rt message email → Marked rt key email es := by
  simp only [bounceHandler, Prog.call_bind, Prog.finishes_ask] at h
  obtain ⟨reply, fs, rfl, h⟩ := h
  cases reply with
  | error e =>
      simp only [Prog.pure_def, Prog.finishes_ret] at h
      cases h.2
  | ok key =>
      refine ⟨key, List.mem_cons_self, ?_⟩
      simp only at h
      split at h
      · simp only [Prog.pure_def, Prog.finishes_ret] at h
        cases h.2
      · obtain ⟨gs, _, errors, rfl, hrecords, h⟩ := Prog.finishes_bind.mp h
        split at h
        · rename_i hnone
          rw [List.isEmpty_iff.mp hnone] at hrecords
          intro message hmessage email haffects
          exact (finishes_processRecords hrecords message hmessage email haffects).mono
            fun e he => by simp [he]
        · simp only [Prog.pure_def, Prog.finishes_ret] at h
          cases h.2

end Runs

/-! ## The requests of the handler -/

def Request.ofBounce : Request → Prop
  | .signIn .resolveEmailHmacKey => True
  | .signIn .now => True
  | .quarantineUser _ => True
  | .putDenylist _ _ _ => True
  | _ => False

theorem quarantineEmail_uses (email emailHash : String) :
    (quarantineEmail email emailHash).Uses Request.ofBounce := by
  simp only [quarantineEmail, Prog.call_bind, Prog.uses_ask]
  refine ⟨trivial, fun marked => ?_⟩
  split
  · trivial
  · refine ⟨trivial, fun nowMs => ⟨trivial, fun dateMs => ?_⟩⟩
    simp only
    split
    · trivial
    · refine ⟨trivial, fun stored => ?_⟩
      simp only
      split <;> trivial
  · trivial

theorem quarantineAll_uses (rt : Runtime) (hmacSecret : String) (recipients : List Json) :
    (quarantineAll rt hmacSecret recipients).Uses Request.ofBounce := by
  induction recipients with
  | nil => trivial
  | cons recipient rest ih =>
      unfold quarantineAll
      split
      · refine (quarantineEmail_uses _ _).bind fun done => ?_
        split
        · trivial
        · exact ih
      · trivial

theorem processRecords_uses (rt : Runtime) (hmacSecret : String) (messages : List String) :
    (processRecords rt hmacSecret messages).Uses Request.ofBounce := by
  induction messages with
  | nil => trivial
  | cons message rest ih =>
      apply Prog.Uses.bind
      · unfold processRecord
        split
        · trivial
        · trivial
        · split
          · trivial
          · exact quarantineAll_uses _ _ _
      · intro done
        exact ih.bind fun _ => trivial

theorem bounceHandler_uses (rt : Runtime) (env : ProcessEnv) (event : SnsEvent) :
    (bounceHandler rt env event).Uses Request.ofBounce := by
  simp only [bounceHandler, Prog.call_bind, Prog.uses_ask]
  refine ⟨trivial, fun key => ?_⟩
  split
  · trivial
  · split
    · trivial
    · refine (processRecords_uses _ _ _).bind fun errors => ?_
      split <;> trivial

end SaasFoundation.Vestibulum.SharedDistribution.Triggers
