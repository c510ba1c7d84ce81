import SaasFoundation.Vestibulum.Idp.ProviderIsolation

/-!
# The settings of app clients

An update of an app client replaces all its settings: one that the request
leaves out goes back to its default. The managers state seven of them, so a
client keeps the others only if they were at their defaults.
-/

namespace SaasFoundation.Vestibulum.Idp

open Lib

/-! ## App clients with all their settings -/

/-- The settings that the requests of the managers leave out. -/
structure OtherSettings where
  clientName : Option String
  refreshTokenValidity : Option Nat
  accessTokenValidity : Option Nat
  idTokenValidity : Option Nat
  tokenValidityUnits : Option Record
  readAttributes : Option (List String)
  writeAttributes : Option (List String)
  defaultRedirectURI : Option String
  analyticsConfiguration : Option Record
  preventUserExistenceErrors : Option String
  enableTokenRevocation : Option Bool
  enablePropagateAdditionalUserContextData : Option Bool
  authSessionValidity : Option Nat
  refreshTokenRotation : Option Record
deriving DecidableEq, Repr

structure ClientConfig where
  stated : AppClient
  others : OtherSettings
deriving DecidableEq, Repr

namespace ClientConfig

/-- `c.SupportedIdentityProviders ?? []`. -/
def providers (c : ClientConfig) : List String := c.stated.supportedIdentityProviders.getD []

/-- `UpdateUserPoolClient`: what the request leaves out is as in `defaults`. -/
def replaced (defaults : ClientConfig) (request : AppClient) : ClientConfig where
  stated :=
    { supportedIdentityProviders :=
        request.supportedIdentityProviders.or defaults.stated.supportedIdentityProviders
      allowedOAuthFlows := request.allowedOAuthFlows.or defaults.stated.allowedOAuthFlows
      allowedOAuthFlowsUserPoolClient :=
        request.allowedOAuthFlowsUserPoolClient.or defaults.stated.allowedOAuthFlowsUserPoolClient
      allowedOAuthScopes := request.allowedOAuthScopes.or defaults.stated.allowedOAuthScopes
      callbackURLs := request.callbackURLs.or defaults.stated.callbackURLs
      logoutURLs := request.logoutURLs.or defaults.stated.logoutURLs
      explicitAuthFlows := request.explicitAuthFlows.or defaults.stated.explicitAuthFlows }
  others := defaults.others

/-- The client after the managers stated its settings with another list. -/
def restated (defaults c : ClientConfig) (next : List String) : ClientConfig :=
  replaced defaults { c.stated with supportedIdentityProviders := some next }

/-- All settings but the list of providers. -/
def rest (c : ClientConfig) : AppClient × OtherSettings :=
  ({ c.stated with supportedIdentityProviders := none }, c.others)

/-- Every setting that an update of the managers leaves out is at its
default. -/
structure AtDefaults (defaults c : ClientConfig) : Prop where
  others : c.others = defaults.others
  allowedOAuthFlows :
    c.stated.allowedOAuthFlows = none → defaults.stated.allowedOAuthFlows = none
  allowedOAuthFlowsUserPoolClient : c.stated.allowedOAuthFlowsUserPoolClient = none →
    defaults.stated.allowedOAuthFlowsUserPoolClient = none
  allowedOAuthScopes :
    c.stated.allowedOAuthScopes = none → defaults.stated.allowedOAuthScopes = none
  callbackURLs : c.stated.callbackURLs = none → defaults.stated.callbackURLs = none
  logoutURLs : c.stated.logoutURLs = none → defaults.stated.logoutURLs = none
  explicitAuthFlows :
    c.stated.explicitAuthFlows = none → defaults.stated.explicitAuthFlows = none

variable {defaults c : ClientConfig} {next : List String}

@[simp] theorem providers_restated : (restated defaults c next).providers = next := rfl

theorem or_eq_self {α : Type} {a d : Option α} : a.or d = a ↔ (a = none → d = none) := by
  cases a with
  | none => simp
  | some a => simp

/-- Nothing but the list is changed exactly if the rest is at its
defaults. -/
theorem rest_restated : (restated defaults c next).rest = c.rest ↔ AtDefaults defaults c := by
  simp only [rest, restated, replaced, Prod.mk.injEq, AppClient.mk.injEq, true_and, or_eq_self]
  constructor
  · rintro ⟨⟨hflows, hpool, hscopes, hcallback, hlogout, hauth⟩, hothers⟩
    exact ⟨hothers.symm, hflows, hpool, hscopes, hcallback, hlogout, hauth⟩
  · rintro ⟨hothers, hflows, hpool, hscopes, hcallback, hlogout, hauth⟩
    exact ⟨⟨hflows, hpool, hscopes, hcallback, hlogout, hauth⟩, hothers.symm⟩

end ClientConfig

/-! ## The pool -/

/-- What a request does to the clients. An update that failed may have been
carried out. -/
def serveClients (defaults : ClientConfig) (w : Table String ClientConfig) :
    (op : Request) → Reply op → Table String ClientConfig → Prop
  | .describeUserPoolClient id, .ok found, w' => (w id).map ClientConfig.stated = found ∧ w' = w
  | .describeUserPoolClient id, .error .resourceNotFound, w' => w id = none ∧ w' = w
  | .updateUserPoolClient id settings, reply, w' =>
      ConditionalWrite (w id ≠ none) w (w.put id (.replaced defaults settings)) reply w'
  | _, _, w' => w' = w

/-- No setting but the lists of providers is changed. -/
def SameRest (w w' : Table String ClientConfig) : Prop :=
  ∀ id, (w' id).map ClientConfig.rest = (w id).map ClientConfig.rest

/-- The call gets to the client: it is in the list, and if a missing client
stops the call, none before it is missing. -/
def Reaches (stops : Bool) (w : Table String ClientConfig) : List String → String → Prop
  | [], _ => False
  | i :: ids, id => id = i ∨ (stops = true → w i ≠ none) ∧ Reaches stops w ids id

/-! ## One client -/

/-- What the two helpers make of the list, if they change it. -/
def attachEdit (n : String) (current : List String) : Option (List String) :=
  if current.contains n then none else some (current ++ [n])

def detachEdit (n : String) (current : List String) : Option (List String) :=
  if !current.contains n then none else some (current.filter fun m => m ≠ n)

/-- What both helpers do: they describe the client, edit its list and write
it back. They differ in the edit, and in how they end without a client. -/
def editClient (edit : List String → Option (List String))
    (missing : String → Except Failure Unit) (refused : Secrets.SdkError → Except Failure Unit)
    (id : String) : Handler (Except Failure Unit) := do
  let desc : Except Secrets.SdkError (Option AppClient) ← request (.describeUserPoolClient id)
  match desc with
  | .error e => pure (refused e)
  | .ok none => pure (missing id)
  | .ok (some c) =>
      (edit (c.supportedIdentityProviders.getD [])).elim (pure (.ok ())) fun next => do
        let reply : Except Secrets.SdkError Unit ← request (.updateUserPoolClient id
          { c with supportedIdentityProviders := some next })
        pure (sent reply)

/-- The end of a helper that met no client: it throws where `stops` says so. -/
def EndsMissing (stops : Bool) (r : Except Failure Unit) : Prop :=
  match stops with
  | true => ∃ e, r = .error e
  | false => r = .ok ()

/-- How the work on a client ends. -/
inductive Edited (defaults : ClientConfig) (edit : List String → Option (List String))
    (stops : Bool) (w : Table String ClientConfig) (id : String) :
    Except Failure Unit → Table String ClientConfig → Prop
  | failed {e : Failure} : Edited defaults edit stops w id (.error e) w
  | missing : w id = none → stops = false → Edited defaults edit stops w id (.ok ()) w
  | left {c : ClientConfig} : w id = some c → edit c.providers = none →
      Edited defaults edit stops w id (.ok ()) w
  | changed {c : ClientConfig} {next : List String} {r : Except Failure Unit} :
      w id = some c → edit c.providers = some next →
      Edited defaults edit stops w id r (w.put id (.restated defaults c next))

/-- A helper that edits the list of a client; `stops` says that it throws
where there is no client. -/
structure Edits (defaults : ClientConfig) (edit : List String → Option (List String))
    (stops : Bool) (act : String → Handler (Except Failure Unit)) : Prop where
  sound : ∀ {w w' : Table String ClientConfig} {id : String} {r : Except Failure Unit},
    (act id).Completes (serveClients defaults) w r w' → Edited defaults edit stops w id r w'
  throws : ∀ {w : Table String ClientConfig} {id : String}, w id = none → stops = true →
    ∃ e, (act id).Completes (serveClients defaults) w (.error e) w
  skips : ∀ {w : Table String ClientConfig} {id : String}, w id = none → stops = false →
    (act id).Completes (serveClients defaults) w (.ok ()) w
  leaves : ∀ {w : Table String ClientConfig} {id : String} {c : ClientConfig}, w id = some c →
    edit c.providers = none → (act id).Completes (serveClients defaults) w (.ok ()) w
  changes : ∀ {w : Table String ClientConfig} {id : String} {c : ClientConfig}
    {next : List String}, w id = some c → edit c.providers = some next →
    (act id).Completes (serveClients defaults) w (.ok ()) (w.put id (.restated defaults c next))

section Helpers

variable {defaults : ClientConfig} {n id : String} {w w' : Table String ClientConfig}
  {r : Except Failure Unit}

/-- The list that is written back. -/
theorem update_edited {edit : List String → Option (List String)} {stops : Bool} {c : ClientConfig}
    {next : List String} (hc : w id = some c) (hedit : edit c.providers = some next)
    (h : (do
      let reply : Except Secrets.SdkError Unit ← request (.updateUserPoolClient id
        { c.stated with supportedIdentityProviders := some next })
      pure (sent reply) : Handler (Except Failure Unit)).Completes (serveClients defaults) w r w') :
    Edited defaults edit stops w id r w' := by
  obtain ⟨reply, v, hserve, rfl, rfl⟩ := h
  cases reply with
  | ok a =>
      obtain ⟨-, rfl⟩ := hserve
      exact .changed hc hedit
  | error e =>
      rcases hserve with rfl | ⟨-, rfl⟩
      · exact .failed
      · exact .changed hc hedit

theorem update_completes {c : ClientConfig} {next : List String} (hc : w id = some c) :
    (do
      let reply : Except Secrets.SdkError Unit ← request (.updateUserPoolClient id
        { c.stated with supportedIdentityProviders := some next })
      pure (sent reply) : Handler (Except Failure Unit)).Completes (serveClients defaults) w (.ok ())
        (w.put id (.restated defaults c next)) :=
  ⟨.ok (), _, ⟨by simp [hc], rfl⟩, rfl, rfl⟩

theorem edited_missing {edit : List String → Option (List String)} {stops : Bool}
    (hr : EndsMissing stops r) (hnone : w id = none) : Edited defaults edit stops w id r w := by
  cases stops with
  | true =>
      obtain ⟨e, rfl⟩ := hr
      exact .failed
  | false =>
      rw [show r = .ok () from hr]
      exact .missing hnone rfl

theorem editClient_edits {edit : List String → Option (List String)} {stops : Bool}
    {missing : String → Except Failure Unit} {refused : Secrets.SdkError → Except Failure Unit}
    (hmissing : ∀ id, EndsMissing stops (missing id))
    (hnotFound : EndsMissing stops (refused .resourceNotFound))
    (hrefused : ∀ e, e ≠ .resourceNotFound → ∃ f, refused e = .error f) :
    Edits defaults edit stops (editClient edit missing refused) where
  sound := by
    rintro w w' id r ⟨desc, v, hserve, h⟩
    match desc with
    | .error .resourceNotFound =>
        obtain ⟨hnone, rfl⟩ := hserve
        obtain ⟨rfl, rfl⟩ := h
        exact edited_missing hnotFound hnone
    | .error .resourceExists =>
        cases hserve
        obtain ⟨rfl, rfl⟩ := h
        obtain ⟨f, hf⟩ := hrefused .resourceExists (by decide)
        rw [hf]
        exact .failed
    | .error .other =>
        cases hserve
        obtain ⟨rfl, rfl⟩ := h
        obtain ⟨f, hf⟩ := hrefused .other (by decide)
        rw [hf]
        exact .failed
    | .ok none =>
        obtain ⟨hnone, rfl⟩ := hserve
        obtain ⟨rfl, rfl⟩ := h
        exact edited_missing (hmissing id) (Option.map_eq_none_iff.mp hnone)
    | .ok (some stated) =>
        obtain ⟨hfound, rfl⟩ := hserve
        obtain ⟨c, hc, rfl⟩ := Option.map_eq_some_iff.mp hfound
        change Prog.Completes _ ((edit c.providers).elim _ _) _ _ _ at h
        cases hedit : edit c.providers with
        | none =>
            rw [hedit] at h
            obtain ⟨rfl, rfl⟩ := h
            exact .left hc hedit
        | some next =>
            rw [hedit] at h
            exact update_edited hc hedit h
  throws := by
    rintro w id hnone rfl
    obtain ⟨e, he⟩ := hmissing id
    exact ⟨e, .ok none, w, ⟨by rw [hnone]; rfl, rfl⟩, he.symm, rfl⟩
  skips := by
    rintro w id hnone rfl
    exact ⟨.ok none, w, ⟨by rw [hnone]; rfl, rfl⟩, Eq.symm (hmissing id), rfl⟩
  leaves := by
    intro w id c hc hedit
    refine ⟨.ok (some c.stated), w, ⟨by rw [hc]; rfl, rfl⟩, ?_⟩
    change Prog.Completes _ ((edit c.providers).elim _ _) _ _ _
    rw [hedit]
    exact ⟨rfl, rfl⟩
  changes := by
    intro w id c next hc hedit
    refine ⟨.ok (some c.stated), w, ⟨by rw [hc]; rfl, rfl⟩, ?_⟩
    change Prog.Completes _ ((edit c.providers).elim _ _) _ _ _
    rw [hedit]
    exact update_completes hc

theorem attachToAppClient_eq (n : String) :
    attachToAppClient n = editClient (attachEdit n)
      (fun id => .error (.manager ⟨.notFound, "App client " ++ id ++ " not found"⟩))
      (fun e => .error (.sdk e)) := by
  funext id
  unfold attachToAppClient editClient attachEdit
  refine congrArg (Bind.bind _) (funext fun desc => ?_)
  match desc with
  | .error e => rfl
  | .ok none => rfl
  | .ok (some c) =>
      dsimp only
      split
      · rfl
      · rfl

theorem detachFromAppClient_eq (n : String) :
    detachFromAppClient n = editClient (detachEdit n) (fun _ => .ok ())
      (fun e => if e = .resourceNotFound then .ok () else .error (.sdk e)) := by
  funext id
  unfold detachFromAppClient editClient detachEdit
  refine congrArg (Bind.bind _) (funext fun desc => ?_)
  match desc with
  | .error .resourceNotFound | .error .resourceExists | .error .other => rfl
  | .ok none => rfl
  | .ok (some c) =>
      dsimp only
      split
      · rfl
      · rfl

theorem attach_edits (defaults : ClientConfig) (n : String) :
    Edits defaults (attachEdit n) true (attachToAppClient n) := by
  rw [attachToAppClient_eq]
  exact editClient_edits (fun id => ⟨_, rfl⟩) ⟨_, rfl⟩ fun e _ => ⟨_, rfl⟩

theorem detach_edits (defaults : ClientConfig) (n : String) :
    Edits defaults (detachEdit n) false (detachFromAppClient n) := by
  rw [detachFromAppClient_eq]
  exact editClient_edits (fun _ => rfl) rfl fun e he => ⟨_, if_neg he⟩

theorem attachEdit_eq_some {current next : List String} :
    attachEdit n current = some next ↔ n ∉ current ∧ next = current ++ [n] := by
  by_cases hmem : n ∈ current
  · simp [attachEdit, hmem]
  · simp [attachEdit, hmem, eq_comm]

theorem detachEdit_eq_some {current next : List String} :
    detachEdit n current = some next ↔ n ∈ current ∧ next = current.filter fun m => m ≠ n := by
  by_cases hmem : n ∈ current
  · simp [detachEdit, hmem, eq_comm]
  · simp [detachEdit, hmem]

/-- What was edited needs no edit. -/
theorem attachEdit_done {current next : List String} (h : attachEdit n current = some next) :
    attachEdit n next = none := by
  obtain ⟨-, rfl⟩ := attachEdit_eq_some.mp h
  simp [attachEdit]

theorem detachEdit_done {current next : List String} (h : detachEdit n current = some next) :
    detachEdit n next = none := by
  obtain ⟨-, rfl⟩ := detachEdit_eq_some.mp h
  simp [detachEdit]

end Helpers

/-! ## All clients of a call -/

section All

variable {defaults : ClientConfig} {edit : List String → Option (List String)} {stops : Bool}
  {act : String → Handler (Except Failure Unit)} {ids : List String}
  {w w' : Table String ClientConfig} {r : Except Failure Unit}

theorem forEach_completes {id : String} :
    (forEach act (id :: ids)).Completes (serveClients defaults) w r w' ↔
      (∃ e, (act id).Completes (serveClients defaults) w (.error e) w' ∧ r = .error e) ∨
        ∃ v, (act id).Completes (serveClients defaults) w (.ok ()) v ∧
          (forEach act ids).Completes (serveClients defaults) v r w' := by
  rw [forEach, attempt_completes]
  simp only [Unique.exists_iff, PUnit.default_eq_unit]

/-- A call that edits lists ends. -/
theorem Edits.forEach_ends (h : Edits defaults edit stops act) (ids : List String)
    (w : Table String ClientConfig) :
    ∃ r w', (forEach act ids).Completes (serveClients defaults) w r w' := by
  induction ids generalizing w with
  | nil => exact ⟨.ok (), w, rfl, rfl⟩
  | cons id ids ih =>
      have hnext : ∀ v, (act id).Completes (serveClients defaults) w (.ok ()) v →
          ∃ r w', (forEach act (id :: ids)).Completes (serveClients defaults) w r w' := by
        intro v hv
        obtain ⟨r, w', hrest⟩ := ih v
        exact ⟨r, w', forEach_completes.mpr (.inr ⟨v, hv, hrest⟩)⟩
      cases hc : w id with
      | none =>
          cases stops with
          | true =>
              obtain ⟨e, he⟩ := h.throws hc rfl
              exact ⟨.error e, w, forEach_completes.mpr (.inl ⟨e, he, rfl⟩)⟩
          | false => exact hnext w (h.skips hc rfl)
      | some c =>
          cases hedit : edit c.providers with
          | none => exact hnext w (h.leaves hc hedit)
          | some next => exact hnext _ (h.changes hc hedit)

/-- A client that needs no edit is left alone. -/
theorem Edits.forEach_settled (h : Edits defaults edit stops act) {id : String} {c : ClientConfig}
    (hc : w id = some c) (hedit : edit c.providers = none)
    (hrun : (forEach act ids).Completes (serveClients defaults) w r w') : w' id = some c := by
  induction ids generalizing w with
  | nil =>
      obtain ⟨-, rfl⟩ := hrun
      exact hc
  | cons i ids ih =>
      have hstep : ∀ {r v}, (act i).Completes (serveClients defaults) w r v → v id = some c := by
        intro r v hv
        cases h.sound hv with
        | failed | missing _ _ | left _ _ => exact hc
        | @changed c' next _ hc' hedit' =>
            have hid : id ≠ i := by
              rintro rfl
              rw [hc] at hc'
              cases hc'
              rw [hedit] at hedit'
              cases hedit'
            rw [Table.put_of_ne _ _ hid, hc]
      rcases forEach_completes.mp hrun with ⟨e, he, -⟩ | ⟨v, hv, hrest⟩
      · exact hstep he
      · exact ih (hstep hv) hrest

theorem SameRest.trans {u v w : Table String ClientConfig} (h : SameRest u v) (h' : SameRest v w) :
    SameRest u w := fun id => (h' id).trans (h id)

theorem SameRest.symm {v w : Table String ClientConfig} (h : SameRest v w) : SameRest w v :=
  fun id => (h id).symm

theorem sameRest_put {id : String} {c : ClientConfig} {next : List String} (hc : w id = some c)
    (hdefaults : ClientConfig.AtDefaults defaults c) :
    SameRest w (w.put id (.restated defaults c next)) := by
  intro i
  by_cases hi : i = id
  · subst hi
    rw [Table.put_self, hc, Option.map_some, Option.map_some,
      ClientConfig.rest_restated.mpr hdefaults]
  · rw [Table.put_of_ne _ _ hi]

/-- An edit leaves every client where it is. -/
theorem put_eq_none {id i : String} {c c' : ClientConfig} (hc : w id = some c) :
    w.put id c' i = none ↔ w i = none := by
  by_cases hi : i = id
  · subst hi
    simp [hc]
  · rw [Table.put_of_ne _ _ hi]

theorem Reaches.congr {v : Table String ClientConfig} (h : ∀ i, v i = none ↔ w i = none)
    {id : String} : Reaches stops v ids id ↔ Reaches stops w ids id := by
  induction ids with
  | nil => rfl
  | cons i ids ih => simp only [Reaches, ih, ne_eq, h]

theorem reaches_false {id : String} : Reaches false w ids id ↔ id ∈ ids := by
  induction ids with
  | nil => simp [Reaches]
  | cons i ids ih => simp [Reaches, ih]

/-- The settings survive if every client that is edited has them at their
defaults. -/
theorem Edits.sameRest (h : Edits defaults edit stops act)
    (hdone : ∀ current next, edit current = some next → edit next = none)
    (hdefaults : ∀ id c next, Reaches stops w ids id → w id = some c →
      edit c.providers = some next → ClientConfig.AtDefaults defaults c)
    (hrun : (forEach act ids).Completes (serveClients defaults) w r w') : SameRest w w' := by
  induction ids generalizing w with
  | nil =>
      obtain ⟨-, rfl⟩ := hrun
      exact fun _ => rfl
  | cons i ids ih =>
      rcases forEach_completes.mp hrun with ⟨e, he, -⟩ | ⟨v, hv, hrest⟩
      · cases h.sound he with
        | failed => exact fun _ => rfl
        | changed hc hedit => exact sameRest_put hc (hdefaults _ _ _ (.inl rfl) hc hedit)
      · cases h.sound hv with
        | missing hnone hstops =>
            refine ih (fun id c next hreach => hdefaults id c next (.inr ⟨?_, hreach⟩)) hrest
            rw [hstops]
            exact fun hfalse => nomatch hfalse
        | left hc _ =>
            refine ih (fun id c next hreach => hdefaults id c next (.inr ⟨fun _ => ?_, hreach⟩)) hrest
            rw [hc]
            exact Option.some_ne_none _
        | @changed c next _ hc hedit =>
            refine (sameRest_put hc (hdefaults _ _ _ (.inl rfl) hc hedit)).trans (ih ?_ hrest)
            intro id c' next' hreach hc' hedit'
            rw [Reaches.congr fun _ => put_eq_none hc] at hreach
            have hid : id ≠ i := by
              rintro rfl
              rw [Table.put_self, Option.some.injEq] at hc'
              subst hc'
              rw [ClientConfig.providers_restated, hdone _ _ hedit] at hedit'
              cases hedit'
            rw [Table.put_of_ne _ _ hid] at hc'
            refine hdefaults id c' next' (.inr ⟨fun _ => ?_, hreach⟩) hc' hedit'
            rw [hc]
            exact Option.some_ne_none _

/-- And only then. -/
theorem Edits.atDefaults (h : Edits defaults edit stops act)
    (hdone : ∀ current next, edit current = some next → edit next = none)
    (hsame : ∀ r w', (forEach act ids).Completes (serveClients defaults) w r w' → SameRest w w')
    {id : String} {c : ClientConfig} {next : List String} (hreach : Reaches stops w ids id)
    (hc : w id = some c) (hedit : edit c.providers = some next) :
    ClientConfig.AtDefaults defaults c := by
  induction ids generalizing w with
  | nil => exact hreach.elim
  | cons i ids ih =>
      -- the first client of the list is edited, and not touched again
      have hfirst : ∀ {c next}, w i = some c → edit c.providers = some next →
          ClientConfig.AtDefaults defaults c := by
        intro c next hc hedit
        obtain ⟨r, w', hrest⟩ := h.forEach_ends ids (w.put i (.restated defaults c next))
        have hlast : w' i = some (.restated defaults c next) :=
          h.forEach_settled (Table.put_self _ _ _) (hdone _ _ hedit) hrest
        have hrest' := hsame r w' (forEach_completes.mpr (.inr ⟨_, h.changes hc hedit, hrest⟩)) i
        rw [hlast, hc, Option.map_some, Option.map_some, Option.some.injEq] at hrest'
        exact ClientConfig.rest_restated.mp hrest'
      rcases hreach with rfl | ⟨hpresent, hreach⟩
      · exact hfirst hc hedit
      · have hskip : (act i).Completes (serveClients defaults) w (.ok ()) w →
            ClientConfig.AtDefaults defaults c := by
          intro hact
          refine ih (fun r w' hrest => hsame r w' ?_) hreach hc
          exact forEach_completes.mpr (.inr ⟨w, hact, hrest⟩)
        cases hi : w i with
        | none =>
            cases stops with
            | true => exact absurd hi (hpresent rfl)
            | false => exact hskip (h.skips hi rfl)
        | some c₀ =>
            cases hedit₀ : edit c₀.providers with
            | none => exact hskip (h.leaves hi hedit₀)
            | some next₀ =>
                by_cases hid : id = i
                · subst hid
                  exact hfirst hc hedit
                · have hsame₀ : SameRest w (w.put i (.restated defaults c₀ next₀)) :=
                    sameRest_put hi (hfirst hi hedit₀)
                  refine ih (fun r w' hrest => hsame₀.symm.trans (hsame r w' ?_))
                    ((Reaches.congr fun _ => put_eq_none hi).mpr hreach)
                    ((Table.put_of_ne _ _ hid).trans hc)
                  exact forEach_completes.mpr (.inr ⟨_, h.changes hi hedit₀, hrest⟩)

/-- What a call that succeeded made of the lists. -/
theorem Edits.lists (h : Edits defaults edit stops act)
    (hdone : ∀ current next, edit current = some next → edit next = none)
    (hrun : (forEach act ids).Completes (serveClients defaults) w (.ok ()) w') (id : String) :
    (w' id).map ClientConfig.providers = (w id).map fun c =>
      if id ∈ ids then (edit c.providers).getD c.providers else c.providers := by
  induction ids generalizing w with
  | nil =>
      obtain ⟨-, rfl⟩ := hrun
      simp
  | cons i ids ih =>
      rcases forEach_completes.mp hrun with ⟨e, -, he⟩ | ⟨v, hv, hrest⟩
      · cases he
      · rw [ih hrest]
        cases h.sound hv with
        | missing hnone _ =>
            by_cases hid : id = i
            · rw [hid, hnone]
              rfl
            · simp [hid]
        | @left c hc hedit =>
            by_cases hid : id = i
            · subst hid
              simp [hc, hedit]
            · simp [hid]
        | @changed c next _ hc hedit =>
            by_cases hid : id = i
            · subst hid
              simp [hc, hedit, hdone _ _ hedit]
            · simp [hid, Table.put_of_ne _ _ hid]

/-- Every list is as it was or was edited once, also where the call failed. -/
theorem Edits.list_cases (h : Edits defaults edit stops act)
    (hdone : ∀ current next, edit current = some next → edit next = none)
    (hrun : (forEach act ids).Completes (serveClients defaults) w r w') {id : String}
    {c : ClientConfig} (hc : w id = some c) :
    ∃ c', w' id = some c' ∧
      (c'.providers = c.providers ∨ edit c.providers = some c'.providers) := by
  induction ids generalizing w c with
  | nil =>
      obtain ⟨-, rfl⟩ := hrun
      exact ⟨c, hc, .inl rfl⟩
  | cons i ids ih =>
      rcases forEach_completes.mp hrun with ⟨e, he, -⟩ | ⟨v, hv, hrest⟩
      · cases h.sound he with
        | failed => exact ⟨c, hc, .inl rfl⟩
        | @changed c₀ next _ hc₀ hedit =>
            by_cases hid : id = i
            · subst hid
              rw [hc] at hc₀
              cases hc₀
              exact ⟨_, Table.put_self _ _ _, .inr hedit⟩
            · exact ⟨c, (Table.put_of_ne _ _ hid).trans hc, .inl rfl⟩
      · cases h.sound hv with
        | missing _ _ | left _ _ => exact ih hrest hc
        | @changed c₀ next _ hc₀ hedit =>
            by_cases hid : id = i
            · subst hid
              rw [hc] at hc₀
              cases hc₀
              exact ⟨_, h.forEach_settled (Table.put_self _ _ _) (hdone _ _ hedit) hrest,
                .inr hedit⟩
            · exact ih hrest ((Table.put_of_ne _ _ hid).trans hc)

/-- Where a missing client stops the call, one that succeeded found them all. -/
theorem Edits.present (h : Edits defaults edit true act)
    (hrun : (forEach act ids).Completes (serveClients defaults) w (.ok ()) w') {id : String}
    (hid : id ∈ ids) : w id ≠ none := by
  induction ids generalizing w with
  | nil => cases hid
  | cons i ids ih =>
      rcases forEach_completes.mp hrun with ⟨e, -, he⟩ | ⟨v, hv, hrest⟩
      · cases he
      · cases h.sound hv with
        | missing _ hstops => cases hstops
        | @left c hc _ =>
            rcases List.mem_cons.mp hid with rfl | hid
            · rw [hc]
              exact Option.some_ne_none c
            · exact ih hrest hid
        | @changed c next _ hc _ =>
            rcases List.mem_cons.mp hid with rfl | hid
            · rw [hc]
              exact Option.some_ne_none c
            · exact mt (put_eq_none hc).mpr (ih hrest hid)

/-- Where every list is as it should be, nothing is done. -/
theorem Edits.unchanged (h : Edits defaults edit stops act)
    (hnone : ∀ id ∈ ids, ∀ c, w id = some c → edit c.providers = none)
    (hrun : (forEach act ids).Completes (serveClients defaults) w r w') : w' = w := by
  induction ids generalizing w with
  | nil => exact hrun.2
  | cons i ids ih =>
      rcases forEach_completes.mp hrun with ⟨e, he, -⟩ | ⟨v, hv, hrest⟩
      · cases h.sound he with
        | failed => rfl
        | changed hc hedit =>
            rw [hnone i (by simp) _ hc] at hedit
            cases hedit
      · cases h.sound hv with
        | missing _ _ | left _ _ => exact ih (fun id hid => hnone id (by simp [hid])) hrest
        | changed hc hedit =>
            rw [hnone i (by simp) _ hc] at hedit
            cases hedit

/-- No run changes any other setting. -/
def KeepsSettings (defaults : ClientConfig) (w : Table String ClientConfig)
    (p : Handler (Except Failure Unit)) : Prop :=
  ∀ r w', p.Completes (serveClients defaults) w r w' → SameRest w w'

theorem Edits.keepsSettings_iff (h : Edits defaults edit stops act)
    (hdone : ∀ current next, edit current = some next → edit next = none) :
    KeepsSettings defaults w (forEach act ids) ↔
      ∀ id c next, Reaches stops w ids id → w id = some c → edit c.providers = some next →
        ClientConfig.AtDefaults defaults c := by
  constructor
  · intro hsame id c next hreach hc hedit
    exact h.atDefaults hdone hsame hreach hc hedit
  · intro hdefaults r w' hrun
    exact h.sameRest hdone hdefaults hrun

end All

/-! ## The managers -/

inductive Manager where
  | oidc
  | saml
deriving DecidableEq, Repr

namespace Manager

def attachToAppClients : Manager → Runtime → String → List String → Handler (Except Failure Unit)
  | .oidc => OidcIdpManager.attachToAppClients
  | .saml => SamlIdpManager.attachToAppClients

def delete : Manager → Runtime → String → List String → Handler (Except Failure Unit)
  | .oidc => OidcIdpManager.delete
  | .saml => SamlIdpManager.delete

variable {manager : Manager} {rt : Runtime} {defaults : ClientConfig} {tenantId : String}
  {ids : List String} {w w' : Table String ClientConfig} {r : Except Failure Unit}

theorem attachToAppClients_eq :
    manager.attachToAppClients rt tenantId ids =
      forEach (attachToAppClient (idpName rt tenantId)) ids := by
  cases manager with
  | oidc => exact attachIdp_eq rt tenantId ids
  | saml => exact attachIdp_eq rt tenantId ids

theorem delete_eq :
    manager.delete rt tenantId ids =
      attempt (forEach (detachFromAppClient (idpName rt tenantId)) ids) fun _ =>
        deleteProvider (idpName rt tenantId) := by
  cases manager with
  | oidc => exact deleteIdp_eq rt tenantId ids
  | saml => exact deleteIdp_eq rt tenantId ids

/-- The clients know nothing of the provider. -/
theorem deleteProvider_completes {n : String}
    (h : (deleteProvider n).Completes (serveClients defaults) w r w') : w' = w := by
  obtain ⟨reply, v, hserve, h⟩ := h
  have hv : v = w := by
    cases reply with
    | ok _ => exact hserve
    | error e => exact hserve
  subst hv
  match reply with
  | .ok () => exact h.2
  | .error .resourceNotFound => exact h.2
  | .error .resourceExists | .error .other => exact h.2

theorem delete_completes (h : (manager.delete rt tenantId ids).Completes
    (serveClients defaults) w r w') :
    ∃ r', (forEach (detachFromAppClient (idpName rt tenantId)) ids).Completes
      (serveClients defaults) w r' w' ∧ (r = .ok () → r' = .ok ()) := by
  rw [delete_eq, attempt_completes] at h
  rcases h with ⟨e, he, rfl⟩ | ⟨a, v, hv, hrest⟩
  · exact ⟨.error e, he, fun hok => nomatch hok⟩
  · rw [deleteProvider_completes hrest]
    exact ⟨.ok a, hv, fun _ => rfl⟩

theorem completes_delete
    (h : (forEach (detachFromAppClient (idpName rt tenantId)) ids).Completes
      (serveClients defaults) w r w') :
    ∃ r', (manager.delete rt tenantId ids).Completes (serveClients defaults) w r' w' := by
  rw [delete_eq]
  cases r with
  | error e => exact ⟨.error e, attempt_completes.mpr (.inl ⟨e, h, rfl⟩)⟩
  | ok a =>
      refine ⟨.ok (), attempt_completes.mpr (.inr ⟨a, w', h, ?_⟩)⟩
      exact ⟨.ok (), w', rfl, rfl, rfl⟩

theorem keepsSettings_attach :
    KeepsSettings defaults w (manager.attachToAppClients rt tenantId ids) ↔
      ∀ id c, Reaches true w ids id → w id = some c → idpName rt tenantId ∉ c.providers →
        ClientConfig.AtDefaults defaults c := by
  rw [attachToAppClients_eq, (attach_edits defaults _).keepsSettings_iff fun _ _ => attachEdit_done]
  constructor
  · intro h id c hreach hc hmem
    exact h id c _ hreach hc (attachEdit_eq_some.mpr ⟨hmem, rfl⟩)
  · intro h id c next hreach hc hedit
    exact h id c hreach hc (attachEdit_eq_some.mp hedit).1

theorem keepsSettings_delete :
    KeepsSettings defaults w (manager.delete rt tenantId ids) ↔
      ∀ id c, id ∈ ids → w id = some c → idpName rt tenantId ∈ c.providers →
        ClientConfig.AtDefaults defaults c := by
  have hforEach : KeepsSettings defaults w (manager.delete rt tenantId ids) ↔
      KeepsSettings defaults w (forEach (detachFromAppClient (idpName rt tenantId)) ids) := by
    constructor
    · intro h r w' hrun
      have hdelete : ∃ r', (manager.delete rt tenantId ids).Completes (serveClients defaults)
          w r' w' := completes_delete hrun
      obtain ⟨r', hdelete⟩ := hdelete
      exact h r' w' hdelete
    · intro h r w' hrun
      obtain ⟨r', hdetach, -⟩ := delete_completes hrun
      exact h r' w' hdetach
  rw [hforEach, (detach_edits defaults _).keepsSettings_iff fun _ _ => detachEdit_done]
  constructor
  · intro h id c hid hc hmem
    exact h id c _ (reaches_false.mpr hid) hc (detachEdit_eq_some.mpr ⟨hmem, rfl⟩)
  · intro h id c next hreach hc hedit
    exact h id c (reaches_false.mp hreach) hc (detachEdit_eq_some.mp hedit).1

/-- What attaching and deleting make of the lists. -/
structure KeepsLists (manager : Manager) (rt : Runtime) (defaults : ClientConfig)
    (tenantId : String) (ids : List String) (w : Table String ClientConfig) : Prop where
  attached : ∀ w', (manager.attachToAppClients rt tenantId ids).Completes (serveClients defaults)
    w (.ok ()) w' → ∀ id ∈ ids, ∃ c, w' id = some c ∧ idpName rt tenantId ∈ c.providers
  no_duplicates : ∀ r w', (manager.attachToAppClients rt tenantId ids).Completes
    (serveClients defaults) w r w' →
      ∀ id c, w id = some c → c.providers.Nodup → ∃ c', w' id = some c' ∧ c'.providers.Nodup
  idempotent : ∀ w', (manager.attachToAppClients rt tenantId ids).Completes (serveClients defaults)
    w (.ok ()) w' → ∀ r w'', (manager.attachToAppClients rt tenantId ids).Completes
      (serveClients defaults) w' r w'' → w'' = w'
  restored : ∀ w' w'', (manager.attachToAppClients rt tenantId ids).Completes
    (serveClients defaults) w (.ok ()) w' →
      (manager.delete rt tenantId ids).Completes (serveClients defaults) w' (.ok ()) w'' →
        ∀ id c, w id = some c → idpName rt tenantId ∉ c.providers →
          ∃ c', w'' id = some c' ∧ c'.providers = c.providers

theorem attached_mem
    (hrun : (manager.attachToAppClients rt tenantId ids).Completes (serveClients defaults)
      w (.ok ()) w') {id : String} (hid : id ∈ ids) :
    ∃ c, w' id = some c ∧ idpName rt tenantId ∈ c.providers := by
  rw [attachToAppClients_eq] at hrun
  have hattach := attach_edits defaults (idpName rt tenantId)
  obtain ⟨c₀, hc₀⟩ := Option.ne_none_iff_exists'.mp (hattach.present hrun hid)
  have hlist := hattach.lists (fun _ _ => attachEdit_done) hrun id
  rw [hc₀, Option.map_some, if_pos hid] at hlist
  obtain ⟨c, hc, hproviders⟩ := Option.map_eq_some_iff.mp hlist
  refine ⟨c, hc, ?_⟩
  rw [hproviders]
  by_cases hmem : idpName rt tenantId ∈ c₀.providers
  · have hedit : attachEdit (idpName rt tenantId) c₀.providers = none := by simp [attachEdit, hmem]
    rwa [hedit]
  · rw [attachEdit_eq_some.mpr ⟨hmem, rfl⟩]
    simp

theorem keepsLists : KeepsLists manager rt defaults tenantId ids w where
  attached := fun _ hrun _ => attached_mem hrun
  no_duplicates := by
    intro r w' hrun id c hc hnodup
    rw [attachToAppClients_eq] at hrun
    obtain ⟨c', hc', hlist⟩ :=
      (attach_edits defaults _).list_cases (fun _ _ => attachEdit_done) hrun hc
    refine ⟨c', hc', ?_⟩
    rcases hlist with hsame | hedit
    · rwa [hsame]
    · obtain ⟨hmem, hnext⟩ := attachEdit_eq_some.mp hedit
      rw [hnext]
      refine List.nodup_append.mpr ⟨hnodup, by simp, ?_⟩
      rintro m hm m' hm' rfl
      exact hmem (List.mem_singleton.mp hm' ▸ hm)
  idempotent := by
    intro w' hrun r w'' hagain
    have hmem : ∀ id ∈ ids, ∃ c, w' id = some c ∧ idpName rt tenantId ∈ c.providers :=
      fun id hid => attached_mem hrun hid
    rw [attachToAppClients_eq] at hagain
    refine (attach_edits defaults _).unchanged (fun id hid c hc => ?_) hagain
    obtain ⟨c', hc', hin⟩ := hmem id hid
    rw [hc] at hc'
    cases hc'
    simp [attachEdit, hin]
  restored := by
    intro w' w'' hrun hdelete id c hc hmem
    rw [attachToAppClients_eq] at hrun
    obtain ⟨r', hdetach, hr'⟩ := delete_completes hdelete
    rw [hr' rfl] at hdetach
    have hattached := (attach_edits defaults _).lists (fun _ _ => attachEdit_done) hrun id
    have hdetached := (detach_edits defaults _).lists (fun _ _ => detachEdit_done) hdetach id
    rw [hc, Option.map_some] at hattached
    obtain ⟨c₁, hc₁, hlist₁⟩ := Option.map_eq_some_iff.mp hattached
    rw [hc₁, Option.map_some] at hdetached
    obtain ⟨c₂, hc₂, hlist₂⟩ := Option.map_eq_some_iff.mp hdetached
    refine ⟨c₂, hc₂, ?_⟩
    rw [hlist₂]
    by_cases hid : id ∈ ids
    · rw [if_pos hid, attachEdit_eq_some.mpr ⟨hmem, rfl⟩, Option.getD_some] at hlist₁
      have hmem₁ : idpName rt tenantId ∈ c₁.providers := by simp [hlist₁]
      have hedit := detachEdit_eq_some.mpr ⟨hmem₁, rfl⟩
      rw [if_pos hid, hedit, Option.getD_some, hlist₁, List.filter_append]
      have hfirst : c.providers.filter (fun m => m ≠ idpName rt tenantId) = c.providers := by
        rw [List.filter_eq_self]
        intro m hm
        simpa using fun heq : m = idpName rt tenantId => hmem (heq ▸ hm)
      rw [hfirst]
      simp
    · rw [if_neg hid, hlist₁, if_neg hid]

end Manager

/-- The calls change no other setting exactly if the clients whose lists they
edit have every setting that they leave out at its default. -/
theorem appClients_iff (manager : Manager) (rt : Runtime) (defaults : ClientConfig)
    (tenantId : String) (ids : List String) (w : Table String ClientConfig) :
    (KeepsSettings defaults w (manager.attachToAppClients rt tenantId ids) ↔
      ∀ id c, Reaches true w ids id → w id = some c → idpName rt tenantId ∉ c.providers →
        ClientConfig.AtDefaults defaults c) ∧
    (KeepsSettings defaults w (manager.delete rt tenantId ids) ↔
      ∀ id c, id ∈ ids → w id = some c → idpName rt tenantId ∈ c.providers →
        ClientConfig.AtDefaults defaults c) ∧
    manager.KeepsLists rt defaults tenantId ids w :=
  ⟨Manager.keepsSettings_attach, Manager.keepsSettings_delete, Manager.keepsLists⟩

namespace Small

def unset : ClientConfig :=
  ⟨⟨none, none, none, none, none, none, none⟩,
    ⟨none, some 30, none, none, none, none, none, none, none, none, none, none, none, none⟩⟩

/-- A client whose refresh tokens are valid for one day. -/
def shortLived : ClientConfig :=
  ⟨{ unset.stated with supportedIdentityProviders := some ["COGNITO"] },
    { unset.others with refreshTokenValidity := some 1 }⟩

def pool : Table String ClientConfig := fun id => if id = "web" then some shortLived else none

theorem attach_resets :
    ¬ KeepsSettings unset pool (Manager.oidc.attachToAppClients rt "acme" ["web"]) ∧
      ¬ KeepsSettings unset pool (Manager.saml.attachToAppClients rt "acme" ["web"]) := by
  have hmem : idpName rt "acme" ∉ shortLived.providers := by decide +kernel
  have hothers : shortLived.others ≠ unset.others := by decide
  constructor
  · rw [Manager.keepsSettings_attach]
    intro h
    exact hothers (h "web" shortLived (.inl rfl) rfl hmem).others
  · rw [Manager.keepsSettings_attach]
    intro h
    exact hothers (h "web" shortLived (.inl rfl) rfl hmem).others

end Small

end SaasFoundation.Vestibulum.Idp
