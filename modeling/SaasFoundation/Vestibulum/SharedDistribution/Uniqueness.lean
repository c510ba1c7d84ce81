import SaasFoundation.Lib.Lease
import SaasFoundation.Vestibulum.SharedDistribution.Registry

/-!
# One tenant for each name

A call of `createTenant` reserves its subdomain and its tenant id, stores
the row and releases both. Reservations are leases: while calls act within
the 60 seconds of theirs, no two of them are ever at work on one name.
That keeps calls apart that overlap. It does nothing for a call that comes
after another has finished: the transaction looks at reservations only,
never at the rows, and by then there is none.
-/

namespace SaasFoundation.Vestibulum.SharedDistribution

open Lib

variable {tenantParent : String} {c : TenantConfig}

/-- No two rows carry one subdomain, and no two one tenant id. -/
def UniqueTenants (configs : Table String ClientConfigRow) : Prop :=
  ∀ clientId clientId' row row', configs clientId = some row → configs clientId' = some row' →
    (row.subdomain = row'.subdomain ∨ row.tenantId = row'.tenantId) → clientId = clientId'

/-- Whenever a reservation is granted, no row carries either of its names. -/
def ReservesFreeNames (c : TenantConfig) : Prop :=
  ∀ e ∈ c.log, ∀ r, e.ev = ⟨.reserve r, .ok ()⟩ → ∀ clientId row,
    e.pre.configs clientId = some row → row.subdomain ≠ r.subdomain ∧ row.tenantId ≠ r.tenantId

/-- The requests a reservation is to protect. -/
def Request.isProtected : Request → Bool
  | .putClientConfig _ => true
  | .deleteReservation _ => true
  | _ => false

/-- Rows are stored and reservations released before the reservation of the
call has expired. -/
def ActsInTime (c : TenantConfig) : Prop :=
  ∀ e ∈ c.log, ∀ r, ⟨.reserve r, .ok ()⟩ ∈ localLog c.log e.tid → e.ev.op.isProtected = true →
    e.pre.now < r.expiresAt * 1000

/-! ## The order of a call's claims -/

theorem subdomainKey_ne_tenantIdKey (subdomain tenantId : String) :
    subdomainKey subdomain ≠ tenantIdKey tenantId := by
  intro h
  have hfirst := congrArg (fun s => s.toList.head?) h
  simp [subdomainKey, tenantIdKey, String.toList_append] at hfirst

/-- The reservation of a call at the time `now`. -/
def CreateTenantRequest.reservation (req : CreateTenantRequest) (now : Int) : Reservation :=
  ⟨req.subdomain, req.tenantId, now, now + 60⟩

/-- What comes before a claim of a call: nothing before the reservation,
and a granted reservation before everything else; a name is released once,
and a row is stored once. -/
structure Before (req : CreateTenantRequest) (now : Int) (before : List (Event Request Reply))
    (op : Request) : Prop where
  fresh : op ∉ before.map Event.op
  reserve : ∀ r, op = .reserve r → r = req.reservation now ∧ before = []
  granted : op.isProtected = true → ⟨.reserve (req.reservation now), .ok ()⟩ ∈ before
  put : ∀ row, op = .putClientConfig row → row.subdomain = req.subdomain ∧
    row.tenantId = req.tenantId ∧ ∀ e ∈ before, e.op.isProtected = false
  release : ∀ k, op = .deleteReservation k → k ∈ (req.reservation now).keys

section Before

variable {req : CreateTenantRequest} {now : Int}

theorem Before.ofReserve : Before req now [] (.reserve (req.reservation now)) where
  fresh := by simp
  reserve := by
    intro r hr
    exact ⟨(Request.reserve.inj hr).symm, rfl⟩
  granted := by simp [Request.isProtected]
  put := by simp
  release := by simp

theorem Before.ofPut {row : ClientConfigRow} (hsub : row.subdomain = req.subdomain)
    (htid : row.tenantId = req.tenantId) :
    Before req now [⟨.reserve (req.reservation now), .ok ()⟩] (.putClientConfig row) where
  fresh := by simp
  reserve := by simp
  granted := by simp
  put := by
    intro row' hrow
    rw [← Request.putClientConfig.inj hrow]
    exact ⟨hsub, htid, by simp [Request.isProtected]⟩
  release := by simp

theorem Before.ofRelease {A : List (Event Request Reply)} {k : String}
    (hgranted : ⟨.reserve (req.reservation now), .ok ()⟩ ∈ A)
    (hk : k ∈ (req.reservation now).keys) (hfresh : .deleteReservation k ∉ A.map Event.op) :
    Before req now A (.deleteReservation k) where
  fresh := hfresh
  reserve := by simp
  granted := fun _ => hgranted
  put := by simp
  release := by
    intro k' hk'
    rwa [← Request.deleteReservation.inj hk']

theorem Released.two_keys (now : Int) {rel : List (Event Request Reply)}
    (h : Released req.subdomain req.tenantId rel) :
    ∃ k k' r r', rel = [⟨.deleteReservation k, r⟩, ⟨.deleteReservation k', r'⟩] ∧ k ≠ k' ∧
      k ∈ (req.reservation now).keys ∧ k' ∈ (req.reservation now).keys := by
  have hne := subdomainKey_ne_tenantIdKey req.subdomain req.tenantId
  cases h with
  | subdomainFirst r r' =>
      exact ⟨_, _, r, r', rfl, hne, List.mem_cons_self, List.mem_cons_of_mem _ List.mem_cons_self⟩
  | tenantIdFirst r r' =>
      exact ⟨_, _, r, r', rfl, hne.symm, List.mem_cons_of_mem _ List.mem_cons_self,
        List.mem_cons_self⟩

/-- Wherever a call's claims are cut, the rules of `Before` hold there. -/
theorem Claims.before {cs A B : List (Event Request Reply)} {e : Event Request Reply}
    (h : Claims req now cs) (hcs : cs = A ++ e :: B) : Before req now A e.op := by
  cases h with
  | refused err =>
      rcases A with _ | ⟨x, A⟩
      · simp only [List.nil_append, List.cons.injEq] at hcs
        rw [← hcs.1]
        exact .ofReserve
      · simp at hcs
  | abandoned =>
      rcases A with _ | ⟨x, A⟩
      · simp only [List.nil_append, List.cons.injEq] at hcs
        rw [← hcs.1]
        exact .ofReserve
      · simp at hcs
  | released hrel =>
      obtain ⟨k, k', r, r', rfl, hne, hk, hk'⟩ := hrel.two_keys now
      rcases A with _ | ⟨x, _ | ⟨y, _ | ⟨z, A⟩⟩⟩
      · simp only [List.nil_append, List.cons.injEq] at hcs
        rw [← hcs.1]
        exact .ofReserve
      · simp only [List.cons_append, List.nil_append, List.cons.injEq] at hcs
        rw [← hcs.2.1, ← hcs.1]
        exact .ofRelease List.mem_cons_self hk (by simp)
      · simp only [List.cons_append, List.nil_append, List.cons.injEq] at hcs
        rw [← hcs.2.2.1, ← hcs.2.1, ← hcs.1]
        exact .ofRelease List.mem_cons_self hk' (by simp [hne.symm])
      · simp at hcs
  | stored hsub htid hrel =>
      obtain ⟨k, k', r, r', rfl, hne, hk, hk'⟩ := hrel.two_keys now
      rcases A with _ | ⟨x, _ | ⟨y, _ | ⟨z, _ | ⟨v, A⟩⟩⟩⟩
      · simp only [List.nil_append, List.cons.injEq] at hcs
        rw [← hcs.1]
        exact .ofReserve
      · simp only [List.cons_append, List.nil_append, List.cons.injEq] at hcs
        rw [← hcs.2.1, ← hcs.1]
        exact .ofPut hsub htid
      · simp only [List.cons_append, List.nil_append, List.cons.injEq] at hcs
        rw [← hcs.2.2.1, ← hcs.2.1, ← hcs.1]
        exact .ofRelease List.mem_cons_self hk (by simp)
      · simp only [List.cons_append, List.nil_append, List.cons.injEq] at hcs
        rw [← hcs.2.2.2.1, ← hcs.2.2.1, ← hcs.2.1, ← hcs.1]
        exact .ofRelease List.mem_cons_self hk' (by simp [hne.symm])
      · simp at hcs

end Before

/-! ## The invariant of a run -/

def ClientConfigRow.keys (row : ClientConfigRow) : List String :=
  [subdomainKey row.subdomain, tenantIdKey row.tenantId]

/-- Call `i` was granted a reservation of the key `k` until `deadline` and
has not released it. -/
def Holds (c : TenantConfig) (i : Nat) (k : String) (deadline : Int) : Prop :=
  ∃ r, ⟨.reserve r, .ok ()⟩ ∈ localLog c.log i ∧ k ∈ r.keys ∧ deadline = r.expiresAt * 1000 ∧
    .deleteReservation k ∉ (localLog c.log i).map Event.op

/-- The reservations with their deadlines in milliseconds. -/
def deadlines (w : World) : Table String Int := fun k => (w.reservations k).map (· * 1000)

structure Inv (c : TenantConfig) : Prop where
  leased : Leased (deadlines c.world) c.world.now (Holds c)
  /-- A row with a name that is held was stored by the holder. -/
  own : ∀ i k d, Holds c i k d → c.world.now < d → ∀ clientId row,
    c.world.configs clientId = some row → k ∈ row.keys →
    ∃ row', .putClientConfig row' ∈ (localLog c.log i).map Event.op
  unique : UniqueTenants c.world.configs

/-- What a call has done when it asks for one of its claims. -/
theorem ask_before (h : (tenantAdmin tenantParent).Reachable c) {i : Nat} {job : Job}
    {op : Request} {k : Reply op → Handler Output}
    (hi : c.threads[i]? = some ⟨job, .ask op k⟩) (hop : op.isClaim = true) :
    ∃ req t, ⟨.now, t⟩ ∈ localLog c.log i ∧
      Before req (t / 1000) (claims (localLog c.log i)) op := by
  obtain ⟨reply⟩ := (inferInstance : Nonempty (Reply op))
  obtain ⟨fs, out, hrun⟩ := ((h.local_run i _ hi).snoc reply).completes
  have hmem : (⟨op, reply⟩ : Event Request Reply) ∈
      localLog c.log i ++ [⟨op, reply⟩] ++ fs := by simp
  cases job with
  | createTenant req =>
      obtain ⟨es₁, es₂, result, hes, hcreate, hret⟩ := Prog.finishes_bind.mp hrun
      simp only [Prog.pure_def, Prog.finishes_ret] at hret
      rw [hret.1, List.append_nil] at hes
      subst hes
      have hsplit : claims (localLog c.log i ++ [⟨op, reply⟩] ++ fs) =
          claims (localLog c.log i) ++ ⟨op, reply⟩ :: claims fs := by
        simp [claims_cons, hop]
      rcases finishes_createTenant hcreate with hnil | ⟨head, t, rest, hes, hquiet, hclaims⟩
      · rw [hsplit] at hnil
        simp at hnil
      · refine ⟨req, t, ?_, ?_⟩
        · -- the clock was read before the first claim, and this is one
          have hpre : (⟨op, reply⟩ : Event Request Reply) ∉ head ++ [⟨.now, t⟩] := by
            intro hin
            have : (⟨op, reply⟩ : Event Request Reply) ∈ claims (head ++ [⟨.now, t⟩]) :=
              List.mem_filter.mpr ⟨hin, hop⟩
            rw [claims_append, hquiet] at this
            simp [claims_cons, Request.isClaim] at this
          have hes' : localLog c.log i ++ [⟨op, reply⟩] ++ fs = head ++ [⟨.now, t⟩] ++ rest := by
            rw [hes]
            simp
          have hread := Prog.mem_of_prefix hes' (List.mem_append_right _ List.mem_cons_self) hpre
            (List.mem_append_right head List.mem_cons_self)
          rcases List.mem_append.mp hread with hlog | hthis
          · exact hlog
          · have := congrArg Event.op (List.mem_singleton.mp hthis)
            simp only at this
            rw [← this] at hop
            cases hop
        · have hcs : claims rest = claims (localLog c.log i) ++ ⟨op, reply⟩ :: claims fs := by
            rw [← hsplit, hes, claims_append, hquiet, List.nil_append, claims_cons,
              if_neg (by simp [Request.isClaim])]
          exact hclaims.before hcs
  | updateTenant req =>
      have huses : (start tenantParent (.updateTenant req)).Uses Request.ofChange :=
        (updateTenant_uses req).bind fun _ => trivial
      have hquiet := (huses.finishes hrun _ hmem).not_claim
      rw [hop] at hquiet
      cases hquiet
  | deleteTenant pages req =>
      have huses : (start tenantParent (.deleteTenant pages req)).Uses Request.ofChange :=
        (deleteTenant_uses pages req).bind fun _ => trivial
      have hquiet := (huses.finishes hrun _ hmem).not_claim
      rw [hop] at hquiet
      cases hquiet

/-! ## Every step keeps it -/

/-- The configuration after thread `i` was served `op` with `r`. -/
def served (c : TenantConfig) (threads : List TenantThread) (i : Nat) (op : Request) (r : Reply op)
    (w : World) : TenantConfig :=
  ⟨w, threads, c.log ++ [⟨i, c.world, ⟨op, r⟩, w⟩]⟩

section Served

variable {threads : List TenantThread} {i : Nat} {op : Request} {r : Reply op} {w : World}

theorem localLog_served (j : Nat) :
    localLog (served c threads i op r w).log j =
      localLog c.log j ++ if i = j then [⟨op, r⟩] else [] := by
  by_cases hij : i = j
  · simp [served, localLog, hij]
  · simp [served, localLog, hij]

theorem mem_localLog_served {j : Nat} {e : Event Request Reply} (h : e ∈ localLog c.log j) :
    e ∈ localLog (served c threads i op r w).log j := by
  rw [localLog_served]
  exact List.mem_append_left _ h

/-- Only a granted reservation makes a new holder. -/
theorem Holds.of_served {j : Nat} {k : String} {d : Int}
    (h : Holds (served c threads i op r w) j k d) :
    Holds c j k d ∨ ∃ s, i = j ∧ (⟨op, r⟩ : Event Request Reply) = ⟨.reserve s, .ok ()⟩ ∧
      k ∈ s.keys ∧ d = s.expiresAt * 1000 := by
  obtain ⟨s, hs, hk, hd, hheld⟩ := h
  rw [localLog_served] at hs hheld
  rcases List.mem_append.mp hs with hs | hs
  · refine .inl ⟨s, hs, hk, hd, ?_⟩
    intro hrel
    exact hheld (by rw [List.map_append]; exact List.mem_append_left _ hrel)
  · by_cases hij : i = j
    · rw [if_pos hij] at hs
      exact .inr ⟨s, hij, (List.mem_singleton.mp hs).symm, hk, hd⟩
    · rw [if_neg hij] at hs
      cases hs

theorem Holds.of_served_unless {j : Nat} {k : String} {d : Int} (hop : ∀ s, op ≠ .reserve s)
    (h : Holds (served c threads i op r w) j k d) : Holds c j k d := by
  rcases h.of_served with hold | ⟨s, -, heq, -⟩
  · exact hold
  · exact absurd (congrArg Event.op heq) (hop s)

/-- A key that is released is not held any more. -/
theorem Holds.not_released {k : String} {d : Int} {reply : Reply (.deleteReservation k)} :
    ¬ Holds (served c threads i (.deleteReservation k) reply w) i k d := by
  rintro ⟨s, -, -, -, hheld⟩
  rw [localLog_served] at hheld
  simp at hheld

/-- Every row has the names of a row there was. -/
def NamesKept (configs configs' : Table String ClientConfigRow) : Prop :=
  ∀ clientId row', configs' clientId = some row' → ∃ row, configs clientId = some row ∧
    row.subdomain = row'.subdomain ∧ row.tenantId = row'.tenantId

theorem NamesKept.refl (configs : Table String ClientConfigRow) : NamesKept configs configs :=
  fun _ row' h => ⟨row', h, rfl, rfl⟩

theorem NamesKept.erase (configs : Table String ClientConfigRow) (clientId : String) :
    NamesKept configs (configs.erase clientId) :=
  fun _ row' h => ⟨row', (Table.erase_some h).2, rfl, rfl⟩

theorem NamesKept.updated (configs : Table String ClientConfigRow) (clientId : String)
    (domains : List String) (updatedAt : String) :
    NamesKept configs (updatedConfigs configs clientId domains updatedAt) := by
  intro id row' hrow
  cases hold : configs clientId with
  | none =>
      simp only [updatedConfigs, hold] at hrow
      exact ⟨row', hrow, rfl, rfl⟩
  | some row =>
      simp only [updatedConfigs, hold] at hrow
      rcases Table.put_some hrow with ⟨rfl, rfl⟩ | ⟨-, hrow⟩
      · exact ⟨row, hold, rfl, rfl⟩
      · exact ⟨row', hrow, rfl, rfl⟩

theorem UniqueTenants.kept {configs configs' : Table String ClientConfigRow}
    (h : UniqueTenants configs) (hkept : NamesKept configs configs') : UniqueTenants configs' := by
  intro id id' row row' hrow hrow' hshare
  obtain ⟨old, hold, hsub, htid⟩ := hkept id row hrow
  obtain ⟨old', hold', hsub', htid'⟩ := hkept id' row' hrow'
  refine h id id' old old' hold hold' ?_
  rwa [hsub, htid, hsub', htid']

/-- A step that makes no holder, releases nothing and gives no row a new
name. -/
theorem Inv.quiet (h : Inv c) (hw : w.now = c.world.now)
    (hres : w.reservations = c.world.reservations) (hkept : NamesKept c.world.configs w.configs)
    (hholds : ∀ j k d, Holds (served c threads i op r w) j k d → Holds c j k d) :
    Inv (served c threads i op r w) where
  leased := by
    show Leased (deadlines w) w.now _
    rw [show deadlines w = deadlines c.world from funext fun k => by simp [deadlines, hres], hw]
    exact h.leased.mono (Int.le_refl _) hholds
  own := by
    intro j k d hj hd id row hrow hk
    obtain ⟨old, hold, hsub, htid⟩ := hkept id row hrow
    have hlive : c.world.now < d := by
      rw [← hw]
      exact hd
    have hkey : k ∈ old.keys := by
      simpa [ClientConfigRow.keys, hsub, htid] using hk
    obtain ⟨row', hput⟩ := h.own j k d (hholds j k d hj) hlive id old hold hkey
    refine ⟨row', ?_⟩
    rw [localLog_served, List.map_append]
    exact List.mem_append_left _ hput
  unique := h.unique.kept hkept

end Served

section Steps

variable {threads : List TenantThread} {i : Nat} {w : World}

/-- The clock of a reservation lies in the past, so what it takes for
expired has expired. -/
theorem Reservation.free {s : Reservation} {w : World} (henabled : s.enabled w.reservations = true)
    (hnow : s.now * 1000 ≤ w.now) {k : String} (hk : k ∈ s.keys) :
    Leased.Free (deadlines w) w.now k := by
  intro d hd
  have hres := List.all_eq_true.mp henabled k hk
  unfold reservable at hres
  simp only [deadlines, Option.map_eq_some_iff] at hd
  obtain ⟨e, he, rfl⟩ := hd
  rw [he] at hres
  simp only [decide_eq_true_eq] at hres
  omega

theorem Reservation.apply_mem {s : Reservation} {reservations : Table String Int} {k : String}
    (hk : k ∈ s.keys) : s.apply reservations k = some s.expiresAt := by
  have hne := subdomainKey_ne_tenantIdKey s.subdomain s.tenantId
  simp only [Reservation.keys, List.mem_cons, List.not_mem_nil, or_false] at hk
  rcases hk with rfl | rfl
  · rw [Reservation.apply, Table.put_of_ne _ _ hne, Table.put_self]
  · rw [Reservation.apply, Table.put_self]

theorem Reservation.apply_not_mem {s : Reservation} {reservations : Table String Int} {k : String}
    (hk : k ∉ s.keys) : s.apply reservations k = reservations k := by
  simp only [Reservation.keys, List.mem_cons, List.not_mem_nil, or_false, not_or] at hk
  rw [Reservation.apply, Table.put_of_ne _ _ hk.2, Table.put_of_ne _ _ hk.1]

/-- A key stands for one name. -/
theorem same_name {row : ClientConfigRow} {s : Reservation} {k : String} (hrow : k ∈ row.keys)
    (hs : k ∈ s.keys) : row.subdomain = s.subdomain ∨ row.tenantId = s.tenantId := by
  simp only [ClientConfigRow.keys, Reservation.keys, List.mem_cons, List.not_mem_nil,
    or_false] at hrow hs
  rcases hrow with rfl | rfl
  · rcases hs with hsub | htid
    · exact .inl (by simpa [subdomainKey] using hsub)
    · exact absurd htid (subdomainKey_ne_tenantIdKey _ _)
  · rcases hs with hsub | htid
    · exact absurd hsub.symm (subdomainKey_ne_tenantIdKey _ _)
    · exact .inr (by simpa [tenantIdKey] using htid)

/-- A transaction that went through, acknowledged or not: it met no live
reservation, and if it was granted, no row with either name. -/
theorem Inv.reserve (h : Inv c) {s : Reservation} {reply : Reply (.reserve s)}
    (henabled : s.enabled c.world.reservations = true) (hnow : s.now * 1000 ≤ c.world.now)
    (hnames : reply = .ok () → ∀ clientId row, c.world.configs clientId = some row →
      row.subdomain ≠ s.subdomain ∧ row.tenantId ≠ s.tenantId) :
    Inv (served c threads i (.reserve s) reply
      { c.world with reservations := s.apply c.world.reservations }) where
  leased := by
    refine h.leased.put i (s.expiresAt * 1000) (· ∈ s.keys)
      (fun k hk => Reservation.free henabled hnow hk) ?_ ?_ ?_
    · intro k hk
      show (s.apply c.world.reservations k).map (· * 1000) = _
      rw [Reservation.apply_mem hk]
      rfl
    · intro k hk
      show (s.apply c.world.reservations k).map (· * 1000) = _
      rw [Reservation.apply_not_mem hk]
      rfl
    · intro j k d hj
      rcases hj.of_served with hold | ⟨s', rfl, heq, hk, hd⟩
      · exact .inl hold
      · cases heq
        exact .inr ⟨hk, rfl, hd⟩
  own := by
    intro j k d hj hd id row hrow hk
    rcases hj.of_served with hold | ⟨s', rfl, heq, hks, -⟩
    · obtain ⟨row', hput⟩ := h.own j k d hold hd id row hrow hk
      refine ⟨row', ?_⟩
      rw [localLog_served, List.map_append]
      exact List.mem_append_left _ hput
    · -- the new holder: no row has the name
      cases heq
      obtain ⟨hsub, htid⟩ := hnames rfl id row hrow
      rcases same_name hk hks with hshare | hshare
      · exact absurd hshare hsub
      · exact absurd hshare htid
  unique := h.unique

/-- A row that was stored in time, by a call that had stored none. -/
theorem Inv.put (h : Inv c) {row : ClientConfigRow} {reply : Reply (.putClientConfig row)}
    {d : Int} (hheld : ∀ k ∈ row.keys, Holds c i k d) (hlive : c.world.now < d)
    (hfirst : ∀ row', .putClientConfig row' ∉ (localLog c.log i).map Event.op) :
    Inv (served c threads i (.putClientConfig row) reply
      { c.world with configs := c.world.configs.put row.clientId row }) where
  leased := h.leased.mono (Int.le_refl _) fun j k d hj => hj.of_served_unless (by simp)
  own := by
    intro j k d' hj hd' id row' hrow hk
    have hold := hj.of_served_unless (by simp)
    rw [localLog_served, List.map_append]
    rcases Table.put_some hrow with ⟨rfl, rfl⟩ | ⟨-, hrow⟩
    · -- the new row: whoever holds its name is the one that stored it
      have hij := h.leased.unique (hheld k hk) hold hlive hd'
      refine ⟨row', List.mem_append_right _ ?_⟩
      rw [if_pos hij]
      exact List.mem_cons_self
    · obtain ⟨row'', hput⟩ := h.own j k d' hold hd' id row' hrow hk
      exact ⟨row'', List.mem_append_left _ hput⟩
  unique := by
    have hnew : ∀ id' row', c.world.configs id' = some row' →
        ¬ (row.subdomain = row'.subdomain ∨ row.tenantId = row'.tenantId) := by
      intro id' row' hrow' hshare
      have hkey : ∃ k ∈ row.keys, k ∈ row'.keys := by
        rcases hshare with hsub | htid
        · exact ⟨subdomainKey row.subdomain, by simp [ClientConfigRow.keys],
            by simp [ClientConfigRow.keys, hsub]⟩
        · exact ⟨tenantIdKey row.tenantId, by simp [ClientConfigRow.keys],
            by simp [ClientConfigRow.keys, htid]⟩
      obtain ⟨k, hk, hk'⟩ := hkey
      obtain ⟨row'', hput⟩ := h.own i k d (hheld k hk) hlive id' row' hrow' hk'
      exact hfirst row'' hput
    intro id id' row₁ row₂ hrow₁ hrow₂ hshare
    rcases Table.put_some hrow₁ with ⟨rfl, rfl⟩ | ⟨-, hold₁⟩
    · rcases Table.put_some hrow₂ with ⟨rfl, rfl⟩ | ⟨-, hold₂⟩
      · rfl
      · exact absurd hshare (hnew id' row₂ hold₂)
    · rcases Table.put_some hrow₂ with ⟨rfl, rfl⟩ | ⟨-, hold₂⟩
      · exact absurd (hshare.imp Eq.symm Eq.symm) (hnew id row₁ hold₁)
      · exact h.unique id id' row₁ row₂ hold₁ hold₂ hshare

/-- A release by a holder whose reservation is live. -/
theorem Inv.release (h : Inv c) {k : String} {reply : Reply (.deleteReservation k)} {d : Int}
    (hheld : Holds c i k d) (hlive : c.world.now < d) :
    Inv (served c threads i (.deleteReservation k) reply
      { c.world with reservations := c.world.reservations.erase k }) where
  leased := by
    refine h.leased.take (fun j k d hj => hj.of_served_unless (by simp)) ?_
    intro j k' d' hj hd'
    by_cases hk : k' = k
    · subst hk
      have hij := h.leased.unique hheld (hj.of_served_unless (by simp)) hlive hd'
      subst hij
      exact absurd hj Holds.not_released
    · show ((c.world.reservations.erase k) k').map (· * 1000) = _
      rw [Table.erase_of_ne _ hk]
      rfl
  own := by
    intro j k' d' hj hd' id row hrow hk'
    obtain ⟨row', hput⟩ := h.own j k' d' (hj.of_served_unless (by simp)) hd' id row hrow hk'
    refine ⟨row', ?_⟩
    rw [localLog_served, List.map_append]
    exact List.mem_append_left _ hput
  unique := h.unique

/-- Time passes and expired reservations go; no holder minds. -/
theorem Inv.move (h : Inv c) {m : Move} (hm : c.world.move m = some w) :
    Inv { c with world := w } := by
  have hle := move_now hm
  refine ⟨?_, ?_, ?_⟩
  · rcases move_cases hm with ⟨now, hle, rfl⟩ | ⟨k, e, he, hexp, rfl⟩ | ⟨k, rfl⟩
    · exact h.leased.mono hle fun _ _ _ hj => hj
    · refine h.leased.take (fun _ _ _ hj => hj) ?_
      intro j k' d hj hd
      by_cases hk : k' = k
      · subst hk
        have hrow := (h.leased j k' d hj hd).1
        have hthis : deadlines c.world k' = some (e * 1000) := by simp [deadlines, he]
        rw [hthis] at hrow
        have := Option.some.inj hrow
        omega
      · show ((c.world.reservations.erase k) k').map (· * 1000) = _
        rw [Table.erase_of_ne _ hk]
        rfl
    · exact h.leased
  · have hconfigs : w.configs = c.world.configs := by
      rcases move_cases hm with ⟨_, _, rfl⟩ | ⟨_, _, _, _, rfl⟩ | ⟨_, rfl⟩ <;> rfl
    intro j k d hj hd id row hrow hk
    rw [hconfigs] at hrow
    exact h.own j k d hj (by simp only at hd; omega) id row hrow hk
  · have hconfigs : w.configs = c.world.configs := by
      rcases move_cases hm with ⟨_, _, rfl⟩ | ⟨_, _, _, _, rfl⟩ | ⟨_, rfl⟩ <;> rfl
    rw [hconfigs]
    exact h.unique

end Steps

/-- A served request keeps the invariant, if the reservation it makes is of
free names and what it stores or releases is in time. -/
theorem Inv.request (h : Inv c) (hc : (tenantAdmin tenantParent).Reachable c) {i : Nat} {job : Job}
    {op : Request} {next : Reply op → Handler Output} {r : Reply op} {w : World}
    {threads : List TenantThread} (hi : c.threads[i]? = some ⟨job, .ask op next⟩)
    (hserve : serve c.world op r w) (hnames : ReservesFreeNames (served c threads i op r w))
    (htime : ActsInTime (served c threads i op r w)) : Inv (served c threads i op r w) := by
  have hentry : (⟨i, c.world, ⟨op, r⟩, w⟩ : Entry Request Reply World) ∈
      (served c threads i op r w).log := List.mem_append_right _ List.mem_cons_self
  have hrest : op.isClaim = false → Inv (served c threads i op r w) := by
    intro hop
    have hholds : ∀ j k d, Holds (served c threads i op r w) j k d → Holds c j k d := by
      intro j k d hj
      refine hj.of_served_unless ?_
      rintro s rfl
      cases hop
    cases serve_change hserve with
    | reserve _ => cases hop
    | putConfig _ => cases hop
    | release => cases hop
    | updateConfig => exact h.quiet rfl rfl (.updated _ _ _ _) hholds
    | deleteConfig => exact h.quiet rfl rfl (.erase _ _) hholds
    | _ => exact h.quiet rfl rfl (.refl _) hholds
  by_cases hop : op.isClaim = true
  · obtain ⟨req, t, hclock, hbefore⟩ := ask_before hc hi hop
    have hpast := clock_le hc hclock
    have hlog : ∀ {e}, e ∈ claims (localLog c.log i) → e ∈ localLog c.log i :=
      fun he => List.mem_of_mem_filter he
    cases op with
    | reserve s =>
        obtain ⟨rfl, -⟩ := hbefore.reserve s rfl
        have hnow : (req.reservation (t / 1000)).now * 1000 ≤ c.world.now := by
          have hfloor : ∀ a b : Int, a ≤ b → a / 1000 * 1000 ≤ b := by omega
          exact hfloor t c.world.now hpast
        cases r with
        | ok u =>
            obtain ⟨henabled, rfl⟩ := hserve
            exact h.reserve henabled hnow fun _ => hnames _ hentry _ rfl
        | error x =>
            rcases hserve with rfl | ⟨henabled, rfl⟩
            · refine h.quiet rfl rfl (.refl _) fun j k d hj => ?_
              rcases hj.of_served with hold | ⟨s, -, heq, -⟩
              · exact hold
              · cases heq
            · exact h.reserve henabled hnow fun hok => nomatch hok
    | putClientConfig row =>
        obtain ⟨hsub, htid, hfirst⟩ := hbefore.put row rfl
        have hgranted := hlog (hbefore.granted rfl)
        have hlive := htime _ hentry _ (mem_localLog_served hgranted) rfl
        have hnone : ∀ op' : Request, op'.isProtected = true →
            op' ∉ (localLog c.log i).map Event.op := by
          intro op' hprot hmem
          obtain ⟨e, he, rfl⟩ := List.mem_map.mp hmem
          have hclaim : e.op.isClaim = true := by
            cases hreq : e.op <;> simp_all [Request.isProtected, Request.isClaim]
          have := hfirst e (List.mem_filter.mpr ⟨he, hclaim⟩)
          rw [hprot] at this
          cases this
        rcases ConditionalWrite.changed hserve with rfl | ⟨-, rfl⟩
        · exact h.quiet rfl rfl (.refl _) fun j k d hj => hj.of_served_unless (by simp)
        · refine h.put (d := (req.reservation (t / 1000)).expiresAt * 1000) ?_ hlive
            (fun row' => hnone _ rfl)
          intro k hk
          refine ⟨_, hgranted, ?_, rfl, hnone _ rfl⟩
          simpa [ClientConfigRow.keys, Reservation.keys, CreateTenantRequest.reservation, hsub,
            htid] using hk
    | deleteReservation k =>
        have hgranted := hlog (hbefore.granted rfl)
        have hlive := htime _ hentry _ (mem_localLog_served hgranted) rfl
        have hheld : Holds c i k ((req.reservation (t / 1000)).expiresAt * 1000) := by
          refine ⟨_, hgranted, hbefore.release k rfl, rfl, ?_⟩
          intro hmem
          obtain ⟨e, he, heq⟩ := List.mem_map.mp hmem
          refine hbefore.fresh (List.mem_map.mpr ⟨e, List.mem_filter.mpr ⟨he, ?_⟩, heq⟩)
          rw [heq]
          rfl
        rcases ConditionalWrite.changed hserve with rfl | ⟨-, rfl⟩
        · exact h.quiet rfl rfl (.refl _) fun j k d hj => hj.of_served_unless (by simp)
        · exact h.release hheld hlive
    | _ => cases hop
  · exact hrest (by simpa using hop)

theorem Inv.init {w : World} (hw : (tenantAdmin tenantParent).init w) : Inv ⟨w, [], []⟩ where
  leased := by
    rintro i k d ⟨s, hs, -⟩ _
    cases hs
  own := by
    rintro i k d ⟨s, hs, -⟩ _
    cases hs
  unique := by
    intro id id' row row' hrow
    rw [hw.1] at hrow
    cases hrow

theorem Inv.reachable (h : (tenantAdmin tenantParent).Reachable c) (hnames : ReservesFreeNames c)
    (htime : ActsInTime c) : Inv c := by
  induction h with
  | init hw => exact .init hw
  | @step c d hc hs ih =>
      cases hs with
      | spawn _ =>
          have hold := ih hnames htime
          exact ⟨hold.leased, hold.own, hold.unique⟩
      | request hi hserve =>
          have hold := ih (fun e he => hnames e (List.mem_append_left _ he))
            (fun e he s hs => htime e (List.mem_append_left _ he) s (mem_localLog_served hs))
          exact hold.request hc hi hserve hnames htime
      | drift hd =>
          obtain ⟨m, hm⟩ := hd
          exact (ih hnames htime).move hm

/-- In every run whose reservations are granted for free names and whose
calls act within theirs, tenants are unique. -/
theorem tenants_unique (h : (tenantAdmin tenantParent).Reachable c) (hnames : ReservesFreeNames c)
    (htime : ActsInTime c) : UniqueTenants c.world.configs :=
  (Inv.reachable h hnames htime).unique

/-! ## Running it -/

/-- The app client a request stores a row for. -/
def Request.storedClient : Request → Option String
  | .putClientConfig row => some row.clientId
  | _ => none

/-- The app clients rows were stored for. -/
def storedClients (c : TenantConfig) : List String :=
  c.log.filterMap fun e => e.ev.op.storedClient

/-- Only a put makes a row. -/
theorem stored_of_change {w w' : World} {op : Request} (h : Change w op w') {id : String}
    {row : ClientConfigRow} (hrow : w'.configs id = some row) :
    op.storedClient = some id ∨ ∃ row', w.configs id = some row' := by
  cases h with
  | putConfig hfree =>
      rcases Table.put_some hrow with ⟨rfl, -⟩ | ⟨-, hrow⟩
      · exact .inl rfl
      · exact .inr ⟨row, hrow⟩
  | updateConfig =>
      obtain ⟨old, hold, -⟩ := NamesKept.updated _ _ _ _ id row hrow
      exact .inr ⟨old, hold⟩
  | deleteConfig =>
      obtain ⟨old, hold, -⟩ := NamesKept.erase _ _ id row hrow
      exact .inr ⟨old, hold⟩
  | _ => exact .inr ⟨row, hrow⟩

/-- Rows come from puts, in the world and in every world before it. -/
theorem configs_stored (h : (tenantAdmin tenantParent).Reachable c) :
    (∀ id row, c.world.configs id = some row → id ∈ storedClients c) ∧
    ∀ e ∈ c.log, ∀ id row, e.pre.configs id = some row → id ∈ storedClients c := by
  induction h with
  | init hw =>
      refine ⟨?_, by simp⟩
      intro id row hrow
      rw [hw.1] at hrow
      cases hrow
  | @step c d hc hs ih =>
      cases hs with
      | spawn _ => exact ih
      | @request i job op k r w hi hserve =>
          have hmono : ∀ id ∈ storedClients c,
              id ∈ storedClients (served c (c.threads.set i ⟨job, k r⟩) i op r w) := by
            intro id hid
            unfold storedClients at hid ⊢
            rw [served, List.filterMap_append]
            exact List.mem_append_left _ hid
          constructor
          · intro id row hrow
            rcases stored_of_change (serve_change hserve) hrow with hput | ⟨row', hold⟩
            · exact List.mem_filterMap.mpr
                ⟨_, List.mem_append_right _ List.mem_cons_self, hput⟩
            · exact hmono id (ih.1 id row' hold)
          · intro e he id row hrow
            rcases List.mem_append.mp he with he | he
            · exact hmono id (ih.2 e he id row hrow)
            · rw [List.mem_singleton.mp he] at hrow
              exact hmono id (ih.1 id row hrow)
      | drift hd =>
          obtain ⟨m, hm⟩ := hd
          refine ⟨?_, ih.2⟩
          intro id row hrow
          apply ih.1 id row
          rcases move_cases hm with ⟨_, _, rfl⟩ | ⟨_, _, _, _, rfl⟩ | ⟨_, rfl⟩ <;> exact hrow

/-- The reservation an event grants. -/
def grantedReservation : Event Request Reply → Option Reservation
  | ⟨.reserve r, .ok _⟩ => some r
  | _ => none

/-- `ReservesFreeNames`, over the rows there can be. -/
def reservesFreeNames (c : TenantConfig) : Bool :=
  c.log.all fun e => (grantedReservation e.ev).all fun r => (storedClients c).all fun id =>
    (e.pre.configs id).all fun row =>
      row.subdomain != r.subdomain && row.tenantId != r.tenantId

theorem reservesFreeNames_sound (h : (tenantAdmin tenantParent).Reachable c)
    (hcheck : reservesFreeNames c = true) : ReservesFreeNames c := by
  intro e he r hev id row hrow
  have hgranted : grantedReservation e.ev = some r := by
    rw [hev]
    rfl
  have hall := List.all_eq_true.mp hcheck e he
  rw [hgranted, Option.all_some] at hall
  have hthis := List.all_eq_true.mp hall id ((configs_stored h).2 e he id row hrow)
  rw [hrow, Option.all_some] at hthis
  simpa using hthis

/-- `ActsInTime`, over the log. -/
def actsInTime (c : TenantConfig) : Bool :=
  c.log.all fun e => !e.ev.op.isProtected || (localLog c.log e.tid).all fun ev =>
    (grantedReservation ev).all fun r => decide (e.pre.now < r.expiresAt * 1000)

theorem actsInTime_sound (hcheck : actsInTime c = true) : ActsInTime c := by
  intro e he r hr hprot
  have hall := List.all_eq_true.mp hcheck e he
  rw [hprot, Bool.not_true, Bool.false_or] at hall
  have hthis := List.all_eq_true.mp hall _ hr
  simpa [grantedReservation] using hthis

/-- The names of a stored row. -/
def namesOf (c : TenantConfig) (clientId : String) : Option (String × String) :=
  (c.world.configs clientId).map fun row => (row.subdomain, row.tenantId)

namespace Small

/-- Two calls for one tenant at once, and one for another: the second is
turned away by the reservations of the first. -/
def overlap : Schedule :=
  [.spawn (.createTenant (createRequest "acme" "acme" "key-0001")),
    .spawn (.createTenant (createRequest "acme" "acme" "key-0002")),
    .spawn (.createTenant (createRequest "beta" "b-1" "key-0003"))] ++
    answers 0 3 "client-1" ++ answers 1 3 "client-2" ++ answers 2 4 "client-3" ++
    [.drift (.tick 1700000005000)] ++ answers 0 8 "client-1" ++ answers 2 7 "client-3"

/-- The same tenant created twice, one call after the other. -/
def twice : Schedule :=
  [.spawn (.createTenant (createRequest "acme" "acme" "key-0001"))] ++ answers 0 11 "client-1" ++
    [.spawn (.createTenant (createRequest "acme" "acme" "key-0002"))] ++ answers 1 11 "client-2"

end Small

theorem tenants_unique_overlap : ∃ c, (tenantAdmin Small.tenantParent).Reachable c ∧
    namesOf c "client-1" = some ("acme", "acme") ∧ namesOf c "client-3" = some ("beta", "b-1") ∧
    UniqueTenants c.world.configs := by
  obtain ⟨c, hc, hend⟩ := (interpreter Small.tenantParent).exists_reachable Small.world_init
    Small.overlap (fun c => reservesFreeNames c && actsInTime c &&
      namesOf c "client-1" == some ("acme", "acme") && namesOf c "client-3" == some ("beta", "b-1"))
    (by decide +kernel)
  simp only [Bool.and_eq_true, beq_iff_eq] at hend
  obtain ⟨⟨⟨hfree, htime⟩, hacme⟩, hbeta⟩ := hend
  exact ⟨c, hc, hacme, hbeta,
    tenants_unique hc (reservesFreeNames_sound hc hfree) (actsInTime_sound htime)⟩

/-- A reservation that was released guards nothing: a later call stores a
second row under the same names. -/
theorem tenants_unique_twice : ¬ ∀ (tenantParent : String) (c : TenantConfig),
    (tenantAdmin tenantParent).Reachable c → UniqueTenants c.world.configs := by
  intro hclaim
  obtain ⟨c, hc, hend⟩ := (interpreter Small.tenantParent).exists_reachable Small.world_init
    Small.twice (fun c => namesOf c "client-1" == some ("acme", "acme") &&
      namesOf c "client-2" == some ("acme", "acme")) (by decide +kernel)
  simp only [Bool.and_eq_true, beq_iff_eq, namesOf, Option.map_eq_some_iff] at hend
  obtain ⟨⟨row, hrow, hnames⟩, row', hrow', hnames'⟩ := hend
  have hsub : row.subdomain = row'.subdomain :=
    (congrArg Prod.fst hnames).trans (congrArg Prod.fst hnames').symm
  exact absurd (hclaim _ c hc _ _ row row' hrow hrow' (.inl hsub)) (by decide)

end SaasFoundation.Vestibulum.SharedDistribution
