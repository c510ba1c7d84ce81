import SaasFoundation.Vestibulum.Discovery.Probes

/-!
# Which address is connected to

The resolver may answer differently at every call. A connection should go to
an address that the function itself was given and has checked. The transport
asks nobody about a host that is an address already; bound to an address it
connects to that; otherwise it looks the host up again.
-/

namespace SaasFoundation.Vestibulum.Discovery

open Lib

/-! ## The transport -/

/-- Where a connection may go. -/
def Dials (node : Node) (hostname : String) (pin : Option (String × Family))
    (looked : List String) (address : String) : Prop :=
  if (node.isIP hostname).isSome then address = hostname
  else match pin with
    | some (ip, _) => address = ip
    | none => address ∈ looked

theorem Dials.literal {node : Node} {hostname : String} (h : (node.isIP hostname).isSome)
    (pin : Option (String × Family)) (looked : List String) :
    Dials node hostname pin looked hostname := by
  unfold Dials
  rw [if_pos h]

theorem Dials.unpinned {node : Node} {hostname address : String} {looked : List String}
    (h : node.isIP hostname = none) (hlooked : address ∈ looked) :
    Dials node hostname none looked address := by
  unfold Dials
  rw [if_neg (by simp [h])]
  exact hlooked

/-- The answers of the resolver, by the number of the call, and connections
as the transport makes them. -/
def Serves (node : Node) (resolver : Nat → Option (List String)) :
    Nat → List DiscoveryEvent → Prop
  | _, [] => True
  | n, ⟨.resolve _, answer⟩ :: es => answer = resolver n ∧ Serves node resolver (n + 1) es
  | n, ⟨.fetch _ hostname pin, exchange⟩ :: es =>
      exchange.looked = (resolver n).getD [] ∧
        (∀ address ∈ exchange.connections, Dials node hostname pin exchange.looked address) ∧
        Serves node resolver (n + 1) es

/-! ## Pinning -/

/-- The addresses that the function was given. -/
def obtained : List DiscoveryEvent → List String
  | [] => []
  | ⟨.resolve _, answer⟩ :: es => answer.getD [] ++ obtained es
  | ⟨.fetch _ _ _, _⟩ :: es => obtained es

def connections : List DiscoveryEvent → List String
  | [] => []
  | ⟨.resolve _, _⟩ :: es => connections es
  | ⟨.fetch _ _ _, exchange⟩ :: es => exchange.connections ++ connections es

/-- Connections go to addresses that were given and are public, and there
are none if one of those given is not. -/
structure Pinned (es : List DiscoveryEvent) : Prop where
  checked : ∀ address ∈ connections es, address ∈ obtained es ∧ isPrivateAddress address = false
  blocked : (∃ address ∈ obtained es, isPrivateAddress address = true) → connections es = []

/-- All runs with these answers are pinned. -/
def AlwaysPinned {α : Type} (node : Node) (resolver : Nat → Option (List String))
    (p : Handler α) : Prop :=
  ∀ es q, p.Runs es q → Serves node resolver 0 es → Pinned es

section Fetcher

variable {node : Node} {resolver : Nat → Option (List String)} {α : Type}
  {checkUrl : Except DiscoveryError Url}
  {choose : String → Option (List String) → Except DiscoveryError (Option (String × Family))}
  {target : Url → String} {finish : Url → Exchange → Except DiscoveryError α}

theorem pinned_of_silent {es : List DiscoveryEvent} (h : connections es = []) : Pinned es where
  checked := by
    intro address haddress
    rw [h] at haddress
    cases haddress
  blocked := fun _ => h

/-- A run that connects has asked the resolver once and fetched once. -/
theorem fetcher_runs {es : List DiscoveryEvent} {q : Handler (Except DiscoveryError α)}
    (h : (fetcher checkUrl choose target finish).Runs es q) : connections es = [] ∨
      ∃ url answer pin exchange, checkUrl = .ok url ∧
        choose (unbracketed url.hostname) answer = .ok pin ∧
        es = [⟨.resolve (unbracketed url.hostname), answer⟩,
          ⟨.fetch (target url) (unbracketed url.hostname) pin, exchange⟩] := by
  have hend : ∀ {r : Except DiscoveryError α} {es : List DiscoveryEvent},
      (Prog.ret r : Handler _).Runs es q → es = [] := by
    intro r es hrun
    cases es with
    | nil => rfl
    | cons e es =>
        obtain ⟨k, hk, -⟩ := hrun
        cases hk
  unfold fetcher at h
  cases checkUrl with
  | error e =>
      rw [hend h]
      exact .inl rfl
  | ok url =>
      cases es with
      | nil => exact .inl rfl
      | cons e es =>
          obtain ⟨k, hk, hrest⟩ := h
          obtain ⟨op, answer⟩ := e
          cases hk
          dsimp only at hrest
          split at hrest
          · rw [hend hrest]
            exact .inl rfl
          · rename_i pin hpin
            cases es with
            | nil => exact .inl rfl
            | cons e' es =>
                obtain ⟨k', hk', hlast⟩ := hrest
                obtain ⟨op', exchange⟩ := e'
                cases hk'
                rw [hend hlast]
                exact .inr ⟨url, answer, pin, exchange, rfl, hpin, rfl⟩

/-- A fetcher is pinned if its transport can only dial what was checked. -/
theorem fetcher_pinned (hchecked : ∀ hostname answer pin, choose hostname answer = .ok pin →
      ∀ address ∈ answer.getD [], isPrivateAddress address = false) :
    AlwaysPinned node resolver (fetcher checkUrl choose target finish) ↔
      ∀ url pin, checkUrl = .ok url → choose (unbracketed url.hostname) (resolver 0) = .ok pin →
        ∀ address, Dials node (unbracketed url.hostname) pin ((resolver 1).getD []) address →
          address ∈ (resolver 0).getD [] := by
  constructor
  · intro h url pin hurl hpin address hdials
    -- a run with one connection, to this address
    let exchange : Exchange := ⟨(resolver 1).getD [], [address], .error .aborted⟩
    have hrun : (fetcher checkUrl choose target finish).Runs
        [⟨.resolve (unbracketed url.hostname), resolver 0⟩,
          ⟨.fetch (target url) (unbracketed url.hostname) pin, exchange⟩]
        (.ret (finish url exchange)) := by
      subst hurl
      refine ⟨_, rfl, ?_⟩
      dsimp only
      rw [hpin]
      exact ⟨_, rfl, rfl⟩
    have hpinned := h _ _ hrun ⟨rfl, rfl, fun a ha => (List.mem_singleton.mp ha) ▸ hdials, trivial⟩
    have hmem := (hpinned.checked address (by simp [connections, exchange])).1
    simpa [obtained] using hmem
  · intro h es q hrun hserves
    rcases fetcher_runs hrun with hsilent | ⟨url, answer, pin, exchange, hurl, hpin, rfl⟩
    · exact pinned_of_silent hsilent
    · obtain ⟨rfl, hlooked, hdials, -⟩ := hserves
      have hpublic := hchecked _ _ _ hpin
      have hobtained : obtained [⟨.resolve (unbracketed url.hostname), resolver 0⟩,
          ⟨.fetch (target url) (unbracketed url.hostname) pin, exchange⟩] =
            (resolver 0).getD [] := List.append_nil _
      refine ⟨?_, ?_⟩
      · intro address haddress
        rw [connections, connections, connections, List.append_nil] at haddress
        have hmem := h url pin hurl hpin address (hlooked ▸ hdials address haddress)
        rw [hobtained]
        exact ⟨hmem, hpublic address hmem⟩
      · rintro ⟨address, hmem, hprivate⟩
        rw [hobtained] at hmem
        rw [hpublic address hmem] at hprivate
        cases hprivate

end Fetcher

/-! ## The two fetchers -/

section Conditions

variable (node : Node) (resolver : Nat → Option (List String))

/-- The answer to the function's own lookup, with a first address, and all
of them public. -/
def Passes (ip : String) (rest : List String) : Prop :=
  resolver 0 = some (ip :: rest) ∧ ∀ address ∈ ip :: rest, isPrivateAddress address = false

/-- A host that is an address is among its addresses. -/
def HostListed (url : Url) (ip : String) (rest : List String) : Prop :=
  (node.isIP (unbracketed url.hostname)).isSome → unbracketed url.hostname ∈ ip :: rest

/-- Node takes the first address for one, or a second lookup of the host
gives nothing new. -/
def FirstPinned (url : Url) (ip : String) (rest : List String) : Prop :=
  node.isIP (unbracketed url.hostname) = none → node.isIP ip = none →
    ∀ address ∈ (resolver 1).getD [], address ∈ ip :: rest

def OidcCondition (issuerUrl : String) : Prop :=
  ∀ url ip rest, oidcUrl node issuerUrl = .ok url → Passes resolver ip rest →
    (node.isIP ip).isSome → HostListed node url ip rest

def SamlCondition (metadataUrl : String) : Prop :=
  ∀ url ip rest, samlUrl node metadataUrl = .ok url → Passes resolver ip rest →
    HostListed node url ip rest ∧ FirstPinned node resolver url ip rest

variable {node resolver} {hostname : String} {answer : Option (List String)}
  {pin : Option (String × Family)}

theorem refusedAddress_eq : refusedAddress = isPrivateAddress := rfl

theorem find_private {l : List String} {addr : String}
    (h : l.find? isPrivateAddress = some addr) :
    ¬ ∀ address ∈ l, isPrivateAddress address = false := by
  intro hpublic
  have hprivate := List.find?_some h
  rw [hpublic addr (List.mem_of_find?_eq_some h)] at hprivate
  cases hprivate

/-- The empty text is no public address. -/
theorem public_ne_empty {ip : String} (h : isPrivateAddress ip = false) : ip ≠ "" := by
  rintro rfl
  exact absurd h (by decide +kernel)

theorem oidcPin_ok : oidcPin node hostname answer = .ok pin ↔
    ∃ ip rest family, answer = some (ip :: rest) ∧ node.isIP ip = some family ∧
      (∀ address ∈ ip :: rest, isPrivateAddress address = false) ∧ pin = some (ip, family) := by
  unfold oidcPin
  match answer with
  | none => simp
  | some [] => simp
  | some (ip :: rest) =>
      cases hfind : (ip :: rest).find? isPrivateAddress with
      | some addr =>
          simp only [hfind, reduceCtorEq, false_iff]
          rintro ⟨ip', rest', family, hanswer, -, hpublic, -⟩
          cases hanswer
          exact find_private hfind hpublic
      | none =>
          have hpublic : ∀ address ∈ ip :: rest, isPrivateAddress address = false := by
            simpa [List.find?_eq_none] using hfind
          have hne := public_ne_empty (hpublic ip List.mem_cons_self)
          simp only [hfind, hne, if_false]
          cases hfamily : node.isIP ip with
          | none =>
              simp only [reduceCtorEq, false_iff]
              rintro ⟨ip', rest', family, hanswer, hsome, -, -⟩
              cases hanswer
              rw [hfamily] at hsome
              cases hsome
          | some family =>
              simp only [Except.ok.injEq]
              constructor
              · rintro rfl
                exact ⟨ip, rest, family, rfl, hfamily, hpublic, rfl⟩
              · rintro ⟨ip', rest', family', hanswer, hsome, -, rfl⟩
                cases hanswer
                rw [hfamily] at hsome
                cases hsome
                rfl

theorem samlPin_ok : samlPin node hostname answer = .ok pin ↔
    ∃ ip rest, answer = some (ip :: rest) ∧
      (∀ address ∈ ip :: rest, isPrivateAddress address = false) ∧
      pin = (node.isIP ip).map fun family => (ip, family) := by
  unfold samlPin
  rw [refusedAddress_eq]
  match answer with
  | none => simp
  | some [] => simp
  | some (ip :: rest) =>
      cases hfind : (ip :: rest).find? isPrivateAddress with
      | some addr =>
          simp only [hfind, reduceCtorEq, false_iff]
          rintro ⟨ip', rest', hanswer, hpublic, -⟩
          cases hanswer
          exact find_private hfind hpublic
      | none =>
          have hpublic : ∀ address ∈ ip :: rest, isPrivateAddress address = false := by
            simpa [List.find?_eq_none] using hfind
          have hne := public_ne_empty (hpublic ip List.mem_cons_self)
          simp only [hfind, hne, if_false, Except.ok.injEq]
          constructor
          · rintro rfl
            exact ⟨ip, rest, rfl, hpublic, rfl⟩
          · rintro ⟨ip', rest', hanswer, -, rfl⟩
            cases hanswer
            rfl

end Conditions

/-- The probe is pinned unless the host is an address that the resolver has
not given; the metadata fetch must also have a first address that Node
recognises. -/
theorem pinned_iff {α β : Type} (node : Node) (resolver : Nat → Option (List String))
    (validate : String → List Nat → Except DiscoveryError α)
    (decode : List Nat → Except DiscoveryError β) (maxBytes timeoutMs : Nat)
    (issuerUrl metadataUrl : String) :
    (AlwaysPinned node resolver (probeOidcIssuer node validate issuerUrl) ↔
      OidcCondition node resolver issuerUrl) ∧
    (AlwaysPinned node resolver (fetchMetadataXml node maxBytes timeoutMs decode metadataUrl) ↔
      SamlCondition node resolver metadataUrl) := by
  constructor
  · rw [probeOidcIssuer, fetcher_pinned]
    · constructor
      · rintro h url ip rest hurl ⟨hanswer, hpublic⟩ hfamily hhost
        obtain ⟨family, hfamily⟩ := Option.isSome_iff_exists.mp hfamily
        have hpin : oidcPin node (unbracketed url.hostname) (resolver 0) = .ok (some (ip, family)) :=
          oidcPin_ok.mpr ⟨ip, rest, family, hanswer, hfamily, hpublic, rfl⟩
        have hmem := h url _ hurl hpin (unbracketed url.hostname) (.literal hhost _ _)
        rwa [hanswer] at hmem
      · intro h url pin hurl hpin address hdials
        obtain ⟨ip, rest, family, hanswer, hfamily, hpublic, rfl⟩ := oidcPin_ok.mp hpin
        rw [hanswer]
        unfold Dials at hdials
        split at hdials
        · rename_i hhost
          rw [hdials]
          exact h url ip rest hurl ⟨hanswer, hpublic⟩ (by rw [hfamily]; rfl) hhost
        · rw [hdials]
          simp
    · intro hostname answer pin hpin
      obtain ⟨ip, rest, family, rfl, -, hpublic, -⟩ := oidcPin_ok.mp hpin
      exact hpublic
  · rw [fetchMetadataXml, fetcher_pinned]
    · constructor
      · rintro h url ip rest hurl ⟨hanswer, hpublic⟩
        have hpin : samlPin node (unbracketed url.hostname) (resolver 0) =
            .ok ((node.isIP ip).map fun family => (ip, family)) :=
          samlPin_ok.mpr ⟨ip, rest, hanswer, hpublic, rfl⟩
        have hall := h url _ hurl hpin
        rw [hanswer] at hall
        refine ⟨fun hhost => hall _ (.literal hhost _ _), ?_⟩
        intro hhost hfamily address hlooked
        refine hall address ?_
        rw [hfamily]
        exact .unpinned hhost hlooked
      · intro h url pin hurl hpin address hdials
        obtain ⟨ip, rest, hanswer, hpublic, rfl⟩ := samlPin_ok.mp hpin
        obtain ⟨hlisted, hfirst⟩ := h url ip rest hurl ⟨hanswer, hpublic⟩
        rw [hanswer]
        unfold Dials at hdials
        split at hdials
        · rename_i hhost
          rw [hdials]
          exact hlisted hhost
        · rename_i hhost
          cases hfamily : node.isIP ip with
          | some family =>
              rw [hfamily] at hdials
              rw [show address = ip from hdials]
              simp
          | none =>
              rw [hfamily] at hdials
              exact hfirst (by simpa using hhost) hfamily address hdials
    · intro hostname answer pin hpin
      obtain ⟨ip, rest, rfl, hpublic, -⟩ := samlPin_ok.mp hpin
      exact hpublic

/-! ## A second lookup -/

namespace Small

/-- Node on the texts below. -/
def node : Node where
  parseUrl := fun text => if text = "https://idp.example/metadata" then
    some ⟨"https:", "", "", "idp.example", text⟩ else none
  isIP := fun text => if text = "169.254.169.254" then some .v4 else none

/-- First an address with its last group missing, which `isPrivateAddress`
lets through and Node does not know; then the address of the metadata
service. -/
def resolver : Nat → Option (List String)
  | 0 => some ["2606:0:0:0:0:0:0:"]
  | _ => some ["169.254.169.254"]

theorem pinned_fails : ¬ ∀ (node : Node) (resolver : Nat → Option (List String)) (url : String),
    AlwaysPinned node resolver (probeOidcIssuer node (fun _ _ => .ok ()) url) ∧
      AlwaysPinned node resolver (fetchMetadataXml node 262144 5000 (fun _ => .ok ()) url) := by
  intro hall
  have hsafe := (hall node resolver "https://idp.example/metadata").2
  -- the run that connects to what the transport has looked up
  have hrun : (fetchMetadataXml node 262144 5000 (fun _ => .ok ())
      "https://idp.example/metadata").Runs
      [⟨.resolve "idp.example", some ["2606:0:0:0:0:0:0:"]⟩,
        ⟨.fetch "https://idp.example/metadata" "idp.example" none,
          ⟨["169.254.169.254"], ["169.254.169.254"], .error .aborted⟩⟩]
      (.ret (.error (.typed .ssrfBlockedDestination
        "Metadata fetch timed out after 5000 ms."))) := by
    have hurl : samlUrl node "https://idp.example/metadata" =
        .ok ⟨"https:", "", "", "idp.example", "https://idp.example/metadata"⟩ := by decide +kernel
    have hpin : samlPin node "idp.example" (some ["2606:0:0:0:0:0:0:"]) = .ok none := by
      decide +kernel
    have hhost : unbracketed "idp.example" = "idp.example" := by decide +kernel
    unfold fetchMetadataXml fetcher
    simp only [hurl, hhost]
    refine ⟨_, rfl, ?_⟩
    simp only [hpin]
    exact ⟨_, rfl, rfl⟩
  have hserves : Serves node resolver 0
      [⟨.resolve "idp.example", some ["2606:0:0:0:0:0:0:"]⟩,
        ⟨.fetch "https://idp.example/metadata" "idp.example" none,
          ⟨["169.254.169.254"], ["169.254.169.254"], .error .aborted⟩⟩] := by
    refine ⟨rfl, rfl, ?_, trivial⟩
    exact fun address haddress => .unpinned (by decide +kernel) haddress
  have hchecked := ((hsafe _ _ hrun hserves).checked "169.254.169.254" (by simp [connections])).1
  revert hchecked
  simp [obtained]

end Small

end SaasFoundation.Vestibulum.Discovery
