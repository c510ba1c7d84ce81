import SaasFoundation.Vestibulum.Idp.Managers
import SaasFoundation.Lib.BigStep
import SaasFoundation.Lib.Store

/-!
# Providers of other tenants

Everything a call does to the pool it does under the derived name of its
tenant. A provider that was created for another tenant is therefore left
alone exactly if that tenant's derived name is another: the guard against
collisions, which would refuse the call, has no names to look at.
-/

namespace SaasFoundation.Vestibulum.Idp

open Lib

/-! ## The user pool -/

structure Provider where
  providerType : ProviderType
  settings : ProviderSettings
  /-- The tenant whose upsert created it; none for a provider that no
  manager made. -/
  creator : Option String

structure UserPool where
  providers : Table String Provider
  clients : Table String AppClient

/-- What a request of a call for `caller` does to the pool. A request that
failed may have been carried out, except where the error says why not. -/
def serve (caller : String) (w : UserPool) : (op : Request) → Reply op → UserPool → Prop
  | .describeIdentityProvider n, .ok (some _), w' => w.providers n ≠ none ∧ w' = w
  | .describeIdentityProvider n, .ok none, w' => w.providers n = none ∧ w' = w
  | .describeIdentityProvider n, .error .resourceNotFound, w' => w.providers n = none ∧ w' = w
  | .createIdentityProvider n type settings, reply, w' =>
      ConditionalWrite (w.providers n = none) w
        { w with providers := w.providers.put n ⟨type, settings, some caller⟩ } reply w'
  | .updateIdentityProvider n settings, reply, w' => ∃ p : Provider,
      ConditionalWrite (w.providers n = some p) w
        { w with providers := w.providers.put n { p with settings := settings } } reply w'
  | .deleteIdentityProvider n, reply, w' =>
      (reply = .error .resourceNotFound → w.providers n = none) ∧
      ConditionalWrite (w.providers n ≠ none) w { w with providers := w.providers.erase n } reply w'
  | .describeUserPoolClient id, .ok found, w' => w.clients id = found ∧ w' = w
  | .describeUserPoolClient id, .error .resourceNotFound, w' => w.clients id = none ∧ w' = w
  | .updateUserPoolClient id settings, reply, w' =>
      ConditionalWrite (w.clients id ≠ none) w { w with clients := w.clients.put id settings } reply w'
  | _, _, w' => w' = w

/-! ## Calls -/

/-- The calls on both managers. -/
inductive Call where
  | upsertOidc (lastIndex : Nat) (input : OidcIdpInput)
  | upsertSaml (input : SamlIdpInput)
  | delete (tenantId : String) (appClientIds : List String)
  | attachToAppClients (tenantId : String) (appClientIds : List String)

def Call.tenantId : Call → String
  | .upsertOidc _ input => input.tenantId
  | .upsertSaml input => input.tenantId
  | .delete tenantId _ => tenantId
  | .attachToAppClients tenantId _ => tenantId

/-- The outcome of a call that is of interest here. -/
def finished {α : Type} (p : Handler (Except Failure α)) : Handler (Except Failure Unit) :=
  attempt p fun _ => pure (.ok ())

/-- `delete` and `attachToAppClients` of the two managers do the same. -/
def Call.run (rt : Runtime) (secretsClient : Secrets.IdpSecretsClient) :
    Call → Handler (Except Failure Unit)
  | .upsertOidc lastIndex input =>
      finished (OidcIdpManager.upsert rt secretsClient lastIndex input)
  | .upsertSaml input => finished (SamlIdpManager.upsert rt input)
  | .delete tenantId appClientIds => OidcIdpManager.delete rt tenantId appClientIds
  | .attachToAppClients tenantId appClientIds =>
      OidcIdpManager.attachToAppClients rt tenantId appClientIds

section Calls

variable (rt : Runtime) (secretsClient : Secrets.IdpSecretsClient)

/-- The pools after any calls one after another, each of which may break
off; before them, no provider is a manager's. -/
inductive Reachable : UserPool → Prop
  | init {w : UserPool} :
      (∀ n p, w.providers n = some p → p.creator = none) → Reachable w
  | call {w w' : UserPool} (call : Call) : Reachable w →
      (call.run rt secretsClient).Visits (serve call.tenantId) w w' → Reachable w'

/-- The app client offers the provider. -/
def Offers (w : UserPool) (id n : String) : Prop :=
  ∃ c, w.clients id = some c ∧ n ∈ c.supportedIdentityProviders.getD []

/-- No provider of the tenant is updated, deleted or detached. -/
def Spares (tenantId : String) (w w' : UserPool) : Prop :=
  ∀ n p, w.providers n = some p → p.creator = some tenantId →
    w'.providers n = some p ∧ ∀ id, Offers w id n → Offers w' id n

/-- In every run, a call for the first tenant spares the second; and where
its name belongs to a provider of the second, the call is refused. -/
def Isolated (tenant₁ tenant₂ : String) : Prop :=
  ∀ w, Reachable rt secretsClient w → ∀ call : Call, call.tenantId = tenant₁ →
    (call.run rt secretsClient).Always (serve tenant₁) (Spares tenant₂) w ∧
    ∀ p, w.providers (idpName rt tenant₁) = some p → p.creator = some tenant₂ →
      ∀ result w', (call.run rt secretsClient).Completes (serve tenant₁) w result w' →
        ∃ message, result = .error (.manager ⟨.nameCollision, message⟩)

end Calls

/-! ## What a request changes -/

/-- The provider a request changes. -/
def Request.provider : Request → Option String
  | .createIdentityProvider n _ _ => some n
  | .updateIdentityProvider n _ => some n
  | .deleteIdentityProvider n => some n
  | _ => none

/-- The app client a request changes. -/
def Request.client : Request → Option String
  | .updateUserPoolClient id _ => some id
  | _ => none

inductive Change (caller : String) (w : UserPool) : Request → UserPool → Prop
  | nothing {op : Request} : Change caller w op w
  | create {n : String} {type : ProviderType} {settings : ProviderSettings} :
      w.providers n = none → Change caller w (.createIdentityProvider n type settings)
        { w with providers := w.providers.put n ⟨type, settings, some caller⟩ }
  | update {n : String} {settings : ProviderSettings} {p : Provider} :
      w.providers n = some p → Change caller w (.updateIdentityProvider n settings)
        { w with providers := w.providers.put n { p with settings := settings } }
  | delete {n : String} : Change caller w (.deleteIdentityProvider n)
      { w with providers := w.providers.erase n }
  | client {id : String} {settings : AppClient} : Change caller w (.updateUserPoolClient id settings)
      { w with clients := w.clients.put id settings }

theorem serve_change {caller : String} {w w' : UserPool} {op : Request} {r : Reply op}
    (h : serve caller w op r w') : Change caller w op w' := by
  cases op with
  | secrets _ | now | parseMetadata _ =>
      cases h
      exact .nothing
  | describeIdentityProvider n =>
      match r with
      | .ok (some _) | .ok none | .error .resourceNotFound =>
          obtain ⟨-, rfl⟩ := h
          exact .nothing
      | .error .resourceExists | .error .other =>
          cases h
          exact .nothing
  | createIdentityProvider n type settings =>
      rcases ConditionalWrite.changed h with rfl | ⟨hfree, rfl⟩
      · exact .nothing
      · exact .create hfree
  | updateIdentityProvider n settings =>
      obtain ⟨p, h⟩ := h
      rcases h.changed with rfl | ⟨hp, rfl⟩
      · exact .nothing
      · exact .update hp
  | deleteIdentityProvider n =>
      rcases h.2.changed with rfl | ⟨-, rfl⟩
      · exact .nothing
      · exact .delete
  | describeUserPoolClient id =>
      match r with
      | .ok _ | .error .resourceNotFound =>
          obtain ⟨-, rfl⟩ := h
          exact .nothing
      | .error .resourceExists | .error .other =>
          cases h
          exact .nothing
  | updateUserPoolClient id settings =>
      rcases ConditionalWrite.changed h with rfl | ⟨-, rfl⟩
      · exact .nothing
      · exact .client

section Change

variable {caller : String} {w w' : UserPool} {op : Request}

theorem Change.providers (h : Change caller w op w') {n : String} (hn : op.provider ≠ some n) :
    w'.providers n = w.providers n := by
  cases h with
  | nothing | client => rfl
  | create _ | update _ => exact Table.put_of_ne _ _ fun h => hn (by rw [h]; rfl)
  | delete => exact Table.erase_of_ne _ fun h => hn (by rw [h]; rfl)

theorem Change.clients (h : Change caller w op w') (hop : op.client = none) :
    w'.clients = w.clients := by
  cases h with
  | client => cases hop
  | nothing | create _ | update _ | delete => rfl

/-- A provider keeps its creator, and a new one is the caller's. -/
theorem Change.creator (h : Change caller w op w') {n tenantId : String} {p : Provider}
    (hp : w'.providers n = some p) (hcreator : p.creator = some tenantId) :
    (∃ q, w.providers n = some q ∧ q.creator = some tenantId) ∨
      tenantId = caller ∧ op.provider = some n := by
  cases h with
  | nothing | client => exact .inl ⟨p, hp, hcreator⟩
  | create _ =>
      rcases Table.put_some hp with ⟨rfl, rfl⟩ | ⟨-, hp⟩
      · exact .inr ⟨(Option.some.inj hcreator).symm, rfl⟩
      · exact .inl ⟨p, hp, hcreator⟩
  | update hq =>
      rcases Table.put_some hp with ⟨rfl, rfl⟩ | ⟨-, hp⟩
      · exact .inl ⟨_, hq, hcreator⟩
      · exact .inl ⟨p, hp, hcreator⟩
  | delete => exact .inl ⟨p, (Table.erase_some hp).2, hcreator⟩

end Change

/-! ## What a call does under its name -/

section Names

variable {rt : Runtime} {secretsClient : Secrets.IdpSecretsClient}

theorem uses_attempt {α β : Type} {P : Request → Prop} {p : Handler (Except Failure α)}
    {f : α → Handler (Except Failure β)} (hp : p.Uses P) (hf : ∀ a, (f a).Uses P) :
    (attempt p f).Uses P := by
  refine Prog.Uses.bind hp fun result => ?_
  cases result with
  | ok a => exact hf a
  | error e => trivial

theorem uses_checked {α β : Type} {P : Request → Prop} {result : Except Failure α}
    {f : α → Handler (Except Failure β)} (hf : ∀ a, result = .ok a → (f a).Uses P) :
    (checked result f).Uses P := by
  cases result with
  | ok a => exact hf a rfl
  | error e => trivial

theorem providerName_eq (rt : Runtime) (tenantId : String) :
    providerName rt tenantId = .ok (idpName rt tenantId) := by
  rw [providerName, normaliseIdpName_new]
  rfl

theorem providerName_inj {tenantId name : String} (h : providerName rt tenantId = .ok name) :
    name = idpName rt tenantId := by
  rw [providerName_eq] at h
  exact (Except.ok.inj h).symm

theorem deleteIdp_eq (rt : Runtime) (tenantId : String) (appClientIds : List String) :
    deleteIdp rt tenantId appClientIds =
      attempt (forEach (detachFromAppClient (idpName rt tenantId)) appClientIds) fun _ =>
        deleteProvider (idpName rt tenantId) := by
  rw [deleteIdp, providerName_eq]
  rfl

theorem attachIdp_eq (rt : Runtime) (tenantId : String) (appClientIds : List String) :
    attachIdp rt tenantId appClientIds =
      forEach (attachToAppClient (idpName rt tenantId)) appClientIds := by
  rw [attachIdp, providerName_eq]
  rfl

/-- No provider but the one of that name. -/
def Only (n : String) (op : Request) : Prop := ∀ m, op.provider = some m → m = n

/-- And no app client. -/
def OnlyProvider (n : String) (op : Request) : Prop := Only n op ∧ op.client = none

theorem only_of_none {n : String} {op : Request} (hp : op.provider = none) : Only n op := by
  intro m hm
  rw [hp] at hm
  cases hm

theorem only_self {n : String} {op : Request} (hp : op.provider = some n) : Only n op := by
  intro m hm
  rw [hp] at hm
  exact (Option.some.inj hm).symm

theorem writeProvider_uses (n : String) (type : ProviderType) (settings : ProviderSettings) :
    (writeProvider n type settings).Uses (OnlyProvider n) := by
  refine uses_attempt ⟨⟨only_of_none rfl, rfl⟩, fun out => ?_⟩ fun existing => ?_
  · match out with
    | .ok _ | .error .resourceNotFound | .error .resourceExists | .error .other => trivial
  · cases existing with
    | some _ => exact ⟨⟨only_self rfl, rfl⟩, fun _ => trivial⟩
    | none => exact ⟨⟨only_self rfl, rfl⟩, fun _ => trivial⟩

theorem deleteProvider_uses (n : String) : (deleteProvider n).Uses (OnlyProvider n) := by
  refine ⟨⟨only_self rfl, rfl⟩, fun reply => ?_⟩
  match reply with
  | .ok _ | .error .resourceNotFound | .error .resourceExists | .error .other => trivial

theorem attachToAppClient_uses (n id : String) : (attachToAppClient n id).Uses (Only n) := by
  refine ⟨only_of_none rfl, fun desc => ?_⟩
  match desc with
  | .error _ | .ok none => trivial
  | .ok (some c) =>
      show Prog.Uses _ (if _ then _ else _)
      split
      · trivial
      · exact ⟨only_of_none rfl, fun _ => trivial⟩

theorem detachFromAppClient_uses (n id : String) : (detachFromAppClient n id).Uses (Only n) := by
  refine ⟨only_of_none rfl, fun desc => ?_⟩
  match desc with
  | .error .resourceNotFound | .error .resourceExists | .error .other | .ok none => trivial
  | .ok (some c) =>
      show Prog.Uses _ (if _ then _ else _)
      split
      · trivial
      · exact ⟨only_of_none rfl, fun _ => trivial⟩

theorem forEach_uses {P : Request → Prop} {act : String → Handler (Except Failure Unit)}
    (h : ∀ id, (act id).Uses P) (ids : List String) : (forEach act ids).Uses P := by
  induction ids with
  | nil => trivial
  | cons id ids ih => exact uses_attempt (h id) fun _ => ih

theorem upsertOidc_uses (lastIndex : Nat) (input : OidcIdpInput) :
    (OidcIdpManager.upsert rt secretsClient lastIndex input).Uses
      (OnlyProvider (idpName rt input.tenantId)) := by
  refine uses_checked fun _ _ => uses_checked fun name hname => ?_
  obtain rfl := providerName_inj hname
  refine uses_attempt ?_ fun read => uses_attempt (writeProvider_uses _ _ _) fun _ =>
    uses_checked fun pinned _ => ⟨⟨only_of_none rfl, rfl⟩, fun _ => trivial⟩
  refine Prog.Uses.bind ((Prog.uses_embed _ _).mono ?_) fun _ => trivial
  rintro op ⟨o, rfl⟩
  exact ⟨only_of_none rfl, rfl⟩

theorem upsertSaml_uses (input : SamlIdpInput) :
    (SamlIdpManager.upsert rt input).Uses (OnlyProvider (idpName rt input.tenantId)) := by
  refine uses_checked fun _ _ => uses_attempt ⟨⟨only_of_none rfl, rfl⟩, fun _ => trivial⟩
    fun parsed => uses_checked fun _ _ => uses_checked fun name hname => ?_
  obtain rfl := providerName_inj hname
  exact uses_attempt (writeProvider_uses _ _ _) fun _ =>
    ⟨⟨only_of_none rfl, rfl⟩, fun _ => trivial⟩

/-- A call changes no provider but the one under the name of its tenant. -/
theorem call_uses (call : Call) :
    (call.run rt secretsClient).Uses (Only (idpName rt call.tenantId)) := by
  have hprovider : ∀ {α : Type} {n : String} {p : Handler α}, p.Uses (OnlyProvider n) →
      p.Uses (Only n) := fun hp => hp.mono fun _ h => h.1
  cases call with
  | upsertOidc lastIndex input =>
      exact uses_attempt (hprovider (upsertOidc_uses lastIndex input)) fun _ => trivial
  | upsertSaml input => exact uses_attempt (hprovider (upsertSaml_uses input)) fun _ => trivial
  | delete tenantId appClientIds =>
      show (deleteIdp rt tenantId appClientIds).Uses _
      rw [deleteIdp_eq]
      exact uses_attempt (forEach_uses (detachFromAppClient_uses _) _) fun _ =>
        hprovider (deleteProvider_uses _)
  | attachToAppClients tenantId appClientIds =>
      show (attachIdp rt tenantId appClientIds).Uses _
      rw [attachIdp_eq]
      exact forEach_uses (attachToAppClient_uses _) _

/-! ## App clients -/

/-- Every other provider stays on offer where it is. -/
def KeepsOffers (n₁ : String) (w w' : UserPool) : Prop :=
  ∀ id n, n ≠ n₁ → Offers w id n → Offers w' id n

theorem keepsOffers_same {n₁ : String} {w w' : UserPool} (h : w'.clients = w.clients) :
    KeepsOffers n₁ w w' := by
  intro id n _ hoffers
  unfold Offers at *
  rwa [h]

theorem keepsOffers_put {n₁ id : String} {w : UserPool} {c : AppClient} {next : List String}
    (hc : w.clients id = some c)
    (hnext : ∀ n ≠ n₁, n ∈ c.supportedIdentityProviders.getD [] → n ∈ next) :
    KeepsOffers n₁ w { w with
      clients := w.clients.put id { c with supportedIdentityProviders := some next } } := by
  intro id' n hn hoffers
  obtain ⟨c', hc', hmem⟩ := hoffers
  by_cases hid : id' = id
  · subst hid
    rw [hc] at hc'
    cases hc'
    exact ⟨_, Table.put_self _ _ _, hnext n hn hmem⟩
  · exact ⟨c', (Table.put_of_ne _ _ hid).trans hc', hmem⟩

theorem always_attempt {α β : Type} {caller : String} {R : UserPool → UserPool → Prop}
    {p : Handler (Except Failure α)} {f : α → Handler (Except Failure β)} {w : UserPool}
    (hp : p.Always (serve caller) R w) (hf : ∀ a v, (f a).Always (serve caller) R v) :
    (attempt p f).Always (serve caller) R w := by
  refine hp.bind fun result v _ => ?_
  cases result with
  | ok a => exact hf a v
  | error e => trivial

theorem forEach_always {caller : String} {R : UserPool → UserPool → Prop}
    {act : String → Handler (Except Failure Unit)}
    (h : ∀ id w, (act id).Always (serve caller) R w) (ids : List String) (w : UserPool) :
    (forEach act ids).Always (serve caller) R w := by
  induction ids generalizing w with
  | nil => trivial
  | cons id ids ih => exact always_attempt (h id w) fun _ v => ih v

theorem onlyProvider_always {α : Type} {n : String} {p : Handler α} (h : p.Uses (OnlyProvider n))
    (caller : String) (w : UserPool) : p.Always (serve caller) (KeepsOffers n) w := by
  refine h.always ?_ w
  intro w op r v hop hserve
  exact keepsOffers_same ((serve_change hserve).clients hop.2)

/-- The list that is written back is the one that was read, but for the
name of the call. -/
theorem client_always {caller n₁ id : String} {w : UserPool} {c : AppClient} {next : List String}
    (hc : w.clients id = some c)
    (hnext : ∀ n ≠ n₁, n ∈ c.supportedIdentityProviders.getD [] → n ∈ next) :
    (do
      let reply : Except Secrets.SdkError Unit ← request (.updateUserPoolClient id
        { c with supportedIdentityProviders := some next })
      pure (sent reply) : Handler (Except Failure Unit)).Always (serve caller)
        (KeepsOffers n₁) w := by
  intro reply v hserve
  refine ⟨?_, trivial⟩
  rcases ConditionalWrite.changed hserve with rfl | ⟨-, rfl⟩
  · exact keepsOffers_same rfl
  · exact keepsOffers_put hc hnext

theorem attachToAppClient_always (caller n id : String) (w : UserPool) :
    (attachToAppClient n id).Always (serve caller) (KeepsOffers n) w := by
  intro desc v hserve
  refine ⟨keepsOffers_same ((serve_change hserve).clients rfl), ?_⟩
  match desc with
  | .error _ | .ok none => trivial
  | .ok (some c) =>
      obtain ⟨hc, rfl⟩ := hserve
      show Prog.Always _ _ (if _ then _ else _) _
      split
      · trivial
      · exact client_always hc fun m _ hm => List.mem_append_left _ hm

theorem detachFromAppClient_always (caller n id : String) (w : UserPool) :
    (detachFromAppClient n id).Always (serve caller) (KeepsOffers n) w := by
  intro desc v hserve
  refine ⟨keepsOffers_same ((serve_change hserve).clients rfl), ?_⟩
  match desc with
  | .error .resourceNotFound | .error .resourceExists | .error .other | .ok none => trivial
  | .ok (some c) =>
      obtain ⟨hc, rfl⟩ := hserve
      show Prog.Always _ _ (if _ then _ else _) _
      split
      · trivial
      · exact client_always hc fun m hm hmem => List.mem_filter.mpr ⟨hmem, by simpa using hm⟩

theorem call_keepsOffers (call : Call) (caller : String) (w : UserPool) :
    (call.run rt secretsClient).Always (serve caller) (KeepsOffers (idpName rt call.tenantId))
      w := by
  cases call with
  | upsertOidc lastIndex input =>
      exact always_attempt (onlyProvider_always (upsertOidc_uses lastIndex input) caller w)
        fun _ _ => trivial
  | upsertSaml input =>
      exact always_attempt (onlyProvider_always (upsertSaml_uses input) caller w) fun _ _ => trivial
  | delete tenantId appClientIds =>
      show (deleteIdp rt tenantId appClientIds).Always _ _ w
      rw [deleteIdp_eq]
      exact always_attempt (forEach_always (detachFromAppClient_always caller _) _ w) fun _ v =>
        onlyProvider_always (deleteProvider_uses _) caller v
  | attachToAppClients tenantId appClientIds =>
      show (attachIdp rt tenantId appClientIds).Always _ _ w
      rw [attachIdp_eq]
      exact forEach_always (attachToAppClient_always caller _) _ w

end Names

/-! ## Isolation -/

section Isolation

variable {rt : Runtime} {secretsClient : Secrets.IdpSecretsClient}

/-- Every provider of a tenant has that tenant's name. -/
def Named (rt : Runtime) (w : UserPool) : Prop :=
  ∀ n p tenantId, w.providers n = some p → p.creator = some tenantId → n = idpName rt tenantId

theorem call_named (call : Call) (w : UserPool) :
    (call.run rt secretsClient).Always (serve call.tenantId)
      (fun w v => Named rt w → Named rt v) w := by
  refine (call_uses call).always ?_ w
  intro w op r v hop hserve hnamed n p tenantId hp hcreator
  rcases (serve_change hserve).creator hp hcreator with ⟨q, hq, hcreator⟩ | ⟨rfl, hn⟩
  · exact hnamed n q tenantId hq hcreator
  · exact hop n hn

theorem Reachable.named {w : UserPool} (h : Reachable rt secretsClient w) : Named rt w := by
  induction h with
  | init hinit =>
      intro n p tenantId hp hcreator
      rw [hinit n p hp] at hcreator
      cases hcreator
  | call call _ hvisits ih => exact hvisits.invariant (call_named call _) ih

theorem call_spares {call : Call} {tenant₂ : String} {w : UserPool} (hnamed : Named rt w)
    (hname : idpName rt call.tenantId ≠ idpName rt tenant₂) :
    (call.run rt secretsClient).Always (serve call.tenantId) (Spares tenant₂) w := by
  have hproviders : (call.run rt secretsClient).Always (serve call.tenantId)
      (fun w v => ∀ n ≠ idpName rt call.tenantId, v.providers n = w.providers n) w := by
    refine (call_uses call).always ?_ w
    intro w op r v hop hserve n hn
    exact (serve_change hserve).providers fun h => hn (hop n h)
  have hsteps := (call_named call w).with_invariant
    (hproviders.and (call_keepsOffers call call.tenantId w)) hnamed
  refine hsteps.mono ?_
  rintro w v ⟨hnamed, hother, hoffers⟩ n p hp hcreator
  -- a provider of the second tenant is not under the call's name
  have hn : n ≠ idpName rt call.tenantId := by
    rw [hnamed n p tenant₂ hp hcreator]
    exact hname.symm
  exact ⟨(hother n hn).trans hp, fun id => hoffers id n hn⟩

/-- A step throws, or it ends and the rest runs. -/
theorem attempt_completes {World α β : Type} {serve : World → (op : Request) → Reply op → World → Prop}
    {p : Handler (Except Failure α)} {f : α → Handler (Except Failure β)}
    {result : Except Failure β} {w w' : World} :
    (attempt p f).Completes serve w result w' ↔
      (∃ e, p.Completes serve w (.error e) w' ∧ result = .error e) ∨
        ∃ a v, p.Completes serve w (.ok a) v ∧ (f a).Completes serve v result w' := by
  unfold attempt
  rw [Prog.completes_bind]
  constructor
  · rintro ⟨step, v, hp, hrest⟩
    cases step with
    | ok a => exact .inr ⟨a, v, hp, hrest⟩
    | error e =>
        obtain ⟨rfl, rfl⟩ := hrest
        exact .inl ⟨e, hp, rfl⟩
  · rintro (⟨e, hp, rfl⟩ | ⟨a, v, hp, hf⟩)
    · exact ⟨.error e, w', hp, rfl, rfl⟩
    · exact ⟨.ok a, v, hp, hf⟩

theorem completes_attempt {α β : Type} {caller : String} {p : Handler (Except Failure α)}
    {f : α → Handler (Except Failure β)} {a : α} {result : Except Failure β} {w v w' : UserPool}
    (hp : p.Completes (serve caller) w (.ok a) v) (hf : (f a).Completes (serve caller) v result w') :
    (attempt p f).Completes (serve caller) w result w' :=
  attempt_completes.mpr (.inr ⟨a, v, hp, hf⟩)

theorem writeProvider_creates {caller n : String} {w : UserPool} (hfree : w.providers n = none)
    (type : ProviderType) (settings : ProviderSettings) :
    (writeProvider n type settings).Completes (serve caller) w (.ok ())
      { w with providers := w.providers.put n ⟨type, settings, some caller⟩ } := by
  apply completes_attempt (a := none) (v := w)
  · exact ⟨.error .resourceNotFound, w, ⟨hfree, rfl⟩, rfl, rfl⟩
  · exact ⟨.ok (), _, ⟨hfree, rfl⟩, rfl, rfl⟩

/-- Pasted metadata that is signed. -/
def signedInput (tenantId : String) : SamlIdpInput := ⟨tenantId, .xml "", none, none, none, none⟩

theorem upsertSaml_creates {w : UserPool} {tenantId : String}
    (hfree : w.providers (idpName rt tenantId) = none) : ∃ record settings,
    (SamlIdpManager.upsert rt (signedInput tenantId)).Completes (serve tenantId) w (.ok record)
      { w with providers := w.providers.put (idpName rt tenantId) ⟨.saml, settings, some tenantId⟩ } := by
  let parsed : SamlMetadata := ⟨true, [0], [], none⟩
  refine ⟨⟨⟨tenantId, idpName rt tenantId, .active, [], 0⟩, none, some 0⟩,
    SamlIdpManager.settings (signedInput tenantId) parsed, .ok parsed, w, rfl, ?_⟩
  show (checked (providerName rt tenantId) _).Completes _ _ _ _
  rw [providerName_eq, checked_ok]
  exact completes_attempt (writeProvider_creates hfree _ _) ⟨(0 : Int), _, rfl, rfl, rfl⟩

/-- A first upsert gives a tenant its provider. -/
theorem reachable_created (rt : Runtime) (secretsClient : Secrets.IdpSecretsClient)
    (tenantId : String) : ∃ w p, Reachable rt secretsClient w ∧
      w.providers (idpName rt tenantId) = some p ∧ p.creator = some tenantId := by
  obtain ⟨record, settings, hrun⟩ := @upsertSaml_creates rt ⟨Table.empty, Table.empty⟩ tenantId rfl
  have hinit : Reachable rt secretsClient ⟨Table.empty, Table.empty⟩ := by
    apply Reachable.init
    intro n p hp
    cases hp
  have hcall : (Call.run rt secretsClient (.upsertSaml (signedInput tenantId))).Completes
      (serve tenantId) _ (.ok ()) _ := completes_attempt hrun ⟨rfl, rfl⟩
  exact ⟨_, _, hinit.call (.upsertSaml (signedInput tenantId)) hcall.visits, Table.put_self _ _ _,
    rfl⟩

theorem not_isolated_of_name_eq {tenant₁ tenant₂ : String}
    (hname : idpName rt tenant₁ = idpName rt tenant₂) :
    ¬ Isolated rt secretsClient tenant₁ tenant₂ := by
  intro hisolated
  obtain ⟨w, p, hw, hp, hcreator⟩ := reachable_created rt secretsClient tenant₂
  have hspares := (hisolated w hw (.delete tenant₁ []) rfl).1
  -- the call deletes the provider
  have hdelete : (deleteIdp rt tenant₁ []).Always (serve tenant₁) (Spares tenant₂) w := hspares
  rw [deleteIdp_eq] at hdelete
  have hgone := (hdelete (.ok ()) { w with providers := w.providers.erase (idpName rt tenant₁) }
    ⟨fun h => (nomatch h), by rw [hname, hp]; exact Option.some_ne_none p, rfl⟩).1
  have := (hgone _ p hp hcreator).1
  rw [← hname] at this
  simp at this

/-- For all tenants: no call for the first touches a provider of the
second, and none needs to be refused, exactly when their slugs differ. -/
theorem providers_isolated_iff (rt : Runtime) (secretsClient : Secrets.IdpSecretsClient)
    (tenant₁ tenant₂ : String) :
    Isolated rt secretsClient tenant₁ tenant₂ ↔ slugOf rt tenant₁ ≠ slugOf rt tenant₂ := by
  rw [← not_iff_not, not_not, ← idpName_inj]
  constructor
  · intro hnot
    by_contra hname
    apply hnot
    rintro w hw call rfl
    refine ⟨call_spares hw.named hname, ?_⟩
    intro p hp hcreator
    exact absurd (hw.named _ p _ hp hcreator) hname
  · exact not_isolated_of_name_eq

end Isolation

namespace Small

/-- A runtime for ASCII text. -/
def rt : Runtime := .tabulated [] [] (fun _ => none) sha_nil hmac_nil

def secretsClient : Secrets.IdpSecretsClient := ⟨"/app/", "eu-central-1", none, 0, by decide +kernel⟩

theorem providers_isolated_shared : ¬ Isolated rt secretsClient "acme" "Acme" ∧
    ¬ ∀ rt secretsClient tenant₁ tenant₂, tenant₁ ≠ tenant₂ →
      Isolated rt secretsClient tenant₁ tenant₂ := by
  have hname : idpName rt "acme" = idpName rt "Acme" := by decide +kernel
  refine ⟨not_isolated_of_name_eq hname, ?_⟩
  intro hall
  exact not_isolated_of_name_eq hname (hall rt secretsClient "acme" "Acme" (by decide))

end Small

end SaasFoundation.Vestibulum.Idp
