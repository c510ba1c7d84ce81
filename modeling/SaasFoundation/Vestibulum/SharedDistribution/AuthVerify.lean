import SaasFoundation.Lib.Cookies
import SaasFoundation.Vestibulum.SharedDistribution.Triggers
import SaasFoundation.Vestibulum.SignIn.Redeem

/-!
# `auth-verify` of the shared distribution, and who reads its cookies

One handler serves every tenant: the `Host` header gives the tenant, the
tenant's row the app client. It redeems a magic link or refreshes, and sets
the ID token as a cookie. The edge takes the token from the `Cookie` header
of later requests.
-/

namespace SaasFoundation.Vestibulum.SharedDistribution.AuthVerify

open Lib Lib.Text
open SignIn (SdkError AuthenticationResult FunctionUrlResult buildSetCookie)
open Triggers (Thrown)

/-! ## The signature -/

/-- The method is not looked at. -/
structure FunctionUrlEvent where
  headers : Option Record
  body : Option String
deriving DecidableEq, Repr

inductive Request where
  | loadClientConfigBySubdomain (subdomain : String)
  | getTokensFromRefreshToken (clientId refreshToken : String)
  | respondToAuthChallenge (clientId session username answer : String)
deriving DecidableEq, Repr

abbrev Reply : Request → Type
  | .loadClientConfigBySubdomain _ => Except Thrown (Option ClientConfigRow)
  | .getTokensFromRefreshToken _ _ => Except SdkError AuthenticationResult
  | .respondToAuthChallenge _ _ _ _ => Except SdkError AuthenticationResult

abbrev Handler (α : Type) := Prog Request Reply α

/-- Make one request. -/
abbrev request (op : Request) : Handler (Reply op) := Prog.call op

/-! ## The request's cookies -/

/-- One part of the header, if it has a name. -/
def parsePair (pair : List Char) : Option (String × String) := do
  let eqIdx ← pair.idxOf? '='
  let name := trim (pair.take eqIdx)
  let value := trim (pair.drop (eqIdx + 1))
  if name = [] then none else some (String.ofList name, String.ofList value)

/-- Of several cookies of one name the last one counts. -/
def parseCookies (header : Option String) : Record :=
  ((header.getD "").toList.splitOn ';').foldl (fun result pair =>
    match parsePair pair with
    | none => result
    | some (name, value) => Triggers.setField result name value) []

/-! ## Responses -/

/-- 15 minutes. -/
def idTokenMaxAge : Int := 15 * 60

/-- 30 days. -/
def refreshTokenMaxAge : Int := 30 * 24 * 60 * 60

def errorResponse (status : Nat) (message : String) : FunctionUrlResult :=
  ⟨status, some [("Content-Type", "application/json")], none,
    some ("\x7b\"error\":\"" ++ message ++ "\"\x7d")⟩

def authFailed : FunctionUrlResult := errorResponse 401 "Authentication failed"

def signedIn (cookies : List String) : FunctionUrlResult :=
  ⟨200, some [("Content-Type", "application/json")], some cookies, some "\x7b\"ok\":true\x7d"⟩

/-- `buildSetCookie`, whose guard against an empty path or domain throws. -/
def setCookie (name value : String) (opts : SignIn.CookieOptions) : Except Thrown String :=
  match buildSetCookie name value opts with
  | none => .error (.error "Cookie domain must not be empty")
  | some line => .ok line

/-- The cookies of both paths. -/
def setCookies (domain idToken : String) (refreshToken : Option String) :
    Except Thrown (List String) := do
  let idCookie ← setCookie "id-token" idToken ⟨.lax, "/", domain, idTokenMaxAge⟩
  let token := refreshToken.getD ""
  if token = "" then pure [idCookie]
  else
    let refreshCookie ←
      setCookie "refresh-token" token ⟨.strict, "/auth-verify", domain, refreshTokenMaxAge⟩
    pure [idCookie, refreshCookie]

/-- What either path makes of Cognito's reply. -/
def answer (domain : String) (reply : Except SdkError AuthenticationResult) :
    Except Thrown FunctionUrlResult :=
  match reply with
  | .error _ => .ok authFailed
  | .ok result =>
      let idToken := result.idToken.getD ""
      if idToken = "" then .ok authFailed
      else (setCookies domain idToken result.refreshToken).map signedIn

/-! ## The handler -/

/-- No body is `null`; `none` is a body that does not parse. -/
def parseBody (rt : Runtime) (body : Option String) : Option Json :=
  if body.getD "" = "" then some .null else rt.jsonParse (body.getD "")

def refresh (domain clientId : String) (cookies : Record) :
    Handler (Except Thrown FunctionUrlResult) :=
  let oldRefreshToken := (cookies.lookup "refresh-token").getD ""
  if oldRefreshToken = "" then pure (.ok authFailed)
  else do
    let reply : Except SdkError AuthenticationResult ←
      request (.getTokensFromRefreshToken clientId oldRefreshToken)
    pure (answer domain reply)

def redeem (domain clientId : String) (body : Json) : Handler (Except Thrown FunctionUrlResult) :=
  match Json.asString (body.get "session"), Json.asString (body.get "challengeAnswer"),
      Json.asString (body.get "email") with
  | some session, some challengeAnswer, some email => do
      let reply : Except SdkError AuthenticationResult ←
        request (.respondToAuthChallenge clientId session email challengeAnswer)
      pure (answer domain reply)
  | _, _, _ => pure (.ok authFailed)

/-- With the tenant's row. -/
def verifyFor (rt : Runtime) (domain : String) (tenantConfig : ClientConfigRow)
    (event : FunctionUrlEvent) : Handler (Except Thrown FunctionUrlResult) :=
  match parseBody rt event.body with
  | none => pure (.ok authFailed)
  | some body =>
      match body.get "refresh" with
      | some (.bool true) =>
          refresh domain tenantConfig.clientId
            (parseCookies ((event.headers.getD []).lookup "cookie"))
      | _ => redeem domain tenantConfig.clientId body

/-- The tenant that the `Host` header names. -/
def tenantOf (rt : Runtime) (tenantParent : String) (event : FunctionUrlEvent) : Option String := do
  let host ← (event.headers.getD []).lookup "host"
  let subdomain ← Edge.extractTenantSubdomainShared rt host.toList tenantParent.toList
  some (String.ofList subdomain)

/-- `tenantParent` is `VESTIBULUM_TENANT_PARENT` or what is injected. -/
def authVerify (rt : Runtime) (tenantParent : Option String) (event : FunctionUrlEvent) :
    Handler (Except Thrown FunctionUrlResult) :=
  let parent := tenantParent.getD ""
  if parent = "" then pure (.ok (errorResponse 500 "Internal configuration error"))
  else
    match tenantOf rt parent event with
    | none => pure (.ok (errorResponse 400 "invalid host"))
    | some subdomain => do
        let loaded : Except Thrown (Option ClientConfigRow) ←
          request (.loadClientConfigBySubdomain subdomain)
        match loaded with
        | .error err => pure (.error err)
        | .ok none => pure (.ok (errorResponse 404 "tenant not found"))
        | .ok (some tenantConfig) =>
            verifyFor rt (subdomain ++ "." ++ parent) tenantConfig event

/-! ## A sign-in and the browser -/

/-- Cognito has issued this token in the run. -/
inductive Issued (es : List (Event Request Reply)) (idToken : String) : Prop
  | refreshed {clientId refreshToken : String} {result : AuthenticationResult} :
      ⟨.getTokensFromRefreshToken clientId refreshToken, .ok result⟩ ∈ es →
      result.idToken = some idToken → Issued es idToken
  | redeemed {clientId session username challengeAnswer : String} {result : AuthenticationResult} :
      ⟨.respondToAuthChallenge clientId session username challengeAnswer, .ok result⟩ ∈ es →
      result.idToken = some idToken → Issued es idToken

/-- The handler answers 200 to an event, with these `Set-Cookie` lines. -/
structure SignsIn (rt : Runtime) (tenantParent : Option String) (event : FunctionUrlEvent)
    (es : List (Event Request Reply)) (idToken : String) (lines : List String) : Prop where
  finishes : ∃ res, (authVerify rt tenantParent event).Finishes es (.ok res) ∧
    res.statusCode = 200 ∧ res.cookies = some lines
  issued : Issued es idToken

/-- What the browser keeps. -/
def kept (lines : List String) : List Cookie := lines.filterMap fun line => Cookie.stored line.toList

/-- The browser sends what it keeps and cookies of other names, in some
order. -/
structure SentBack (lines : List String) (others sent : List Cookie) : Prop where
  perm : sent.Perm (kept lines ++ others)
  sendable : ∀ c ∈ others, c.Sendable
  otherNames : ∀ c ∈ others, ∀ d ∈ kept lines, c.name ≠ d.name

/-- The edge's view of the `Cookie` line. -/
def read (sent : List Cookie) : Option String :=
  Edge.extractTokenFromCookies (some [⟨some "Cookie", String.ofList (Cookie.header sent)⟩])

def IsBase64Url (s : List Char) : Prop := s ≠ [] ∧ ∀ c ∈ s, c.isAlphanum = true ∨ c = '-' ∨ c = '_'

def IsJwtShape (token : String) : Prop :=
  ∃ header payload signature, token.toList = header ++ '.' :: (payload ++ '.' :: signature) ∧
    IsBase64Url header ∧ IsBase64Url payload ∧ IsBase64Url signature

/-! ## The reader -/

theorem idxOf?_append_cons {d : Char} {s : List Char} (hs : d ∉ s) (t : List Char) :
    (s ++ d :: t).idxOf? d = some s.length := by
  induction s with
  | nil => simp [List.idxOf?_cons]
  | cons e s ih =>
      rw [List.mem_cons, not_or] at hs
      obtain ⟨hne, hs⟩ := hs
      have hbeq : (e == d) = false := by simpa using fun h : e = d => hne h.symm
      rw [List.cons_append, List.idxOf?_cons, hbeq, ih hs]
      rfl

/-- The cookie is the one that the edge looks for. -/
def IsIdToken (c : Cookie) : Prop := trim c.name = Edge.idTokenCookie.toList

instance (c : Cookie) : Decidable (IsIdToken c) := by
  unfold IsIdToken
  infer_instance

theorem segmentToken_text {c : Cookie} (h : c.Sendable) :
    Edge.segmentToken c.text =
      if IsIdToken c then some (String.ofList (Edge.unquote (trim c.value))) else none := by
  have hname : '=' ∉ trimStart c.name := fun hmem =>
    h.name_eq ((List.dropWhile_sublist _).subset hmem)
  unfold Edge.segmentToken
  simp only [Cookie.trim_text, idxOf?_append_cons hname]
  cases hstart : trimStart c.name with
  | nil =>
      -- without a name it is not looked at
      have hnot : ¬ IsIdToken c := by
        unfold IsIdToken
        rw [← Cookie.trim_trimStart, hstart]
        decide
      rw [if_neg hnot]
      rfl
  | cons d rest =>
      have htake : ((d :: rest) ++ '=' :: Cookie.trimEnd c.value).take (d :: rest).length =
          d :: rest := List.take_left' rfl
      have hdrop : ((d :: rest) ++ '=' :: Cookie.trimEnd c.value).drop ((d :: rest).length + 1) =
          Cookie.trimEnd c.value := by
        rw [← List.drop_drop, List.drop_left' rfl]
        rfl
      simp only [List.length_cons] at htake hdrop ⊢
      rw [htake, hdrop, Cookie.trim_trimEnd, ← hstart, Cookie.trim_trimStart]
      rfl

/-- The edge takes the first cookie of its name. -/
theorem read_eq {sent : List Cookie} (h : ∀ c ∈ sent, c.Sendable) :
    read sent = (sent.find? fun c => IsIdToken c).map fun c =>
      String.ofList (Edge.unquote (trim c.value)) := by
  have hspace : ∀ s, Edge.segmentToken (' ' :: s) = Edge.segmentToken s := by
    intro s
    unfold Edge.segmentToken
    rw [Cookie.trim_space]
  have hread : read sent =
      ((Cookie.header sent).splitOn ';').findSome? Edge.segmentToken := by
    simp [read, Edge.extractTokenFromCookies]
  rw [hread, Cookie.header_findSome rfl hspace h]
  clear hread
  induction sent with
  | nil => rfl
  | cons c sent ih =>
      rw [List.findSome?_cons, segmentToken_text (h c List.mem_cons_self)]
      by_cases hc : IsIdToken c
      · simp [hc]
      · simp only [hc, ↓reduceIte, decide_false, List.find?_cons_of_neg, Bool.false_eq_true,
          not_false_eq_true]
        exact ih fun d hd => h d (List.mem_cons_of_mem _ hd)

/-! ## The writer -/

section Runs

variable {rt : Runtime} {domain clientId : String} {es : List (Event Request Reply)}
  {res : FunctionUrlResult} {lines : List String}

/-- A run that answers 200 answers what it made of a reply of Cognito. -/
def Answers (domain : String) (out : Except Thrown FunctionUrlResult) : Prop :=
  ∀ res, out = .ok res → res.statusCode = 200 → ∃ reply, answer domain reply = .ok res

theorem answers_error {status : Nat} {message : String} (h : status ≠ 200) :
    Answers domain (.ok (errorResponse status message)) := by
  intro res hres h200
  cases hres
  exact absurd h200 h

theorem refresh_answers {cookies : Record} {out : Except Thrown FunctionUrlResult}
    (h : (refresh domain clientId cookies).Finishes es out) : Answers domain out := by
  unfold refresh at h
  simp only at h
  split at h
  · obtain ⟨-, rfl⟩ := Prog.finishes_ret.mp h
    exact answers_error (by decide)
  · obtain ⟨reply, fs, -, hret⟩ := Prog.finishes_ask.mp h
    obtain ⟨-, rfl⟩ := Prog.finishes_ret.mp hret
    intro res hres _
    exact ⟨reply, hres⟩

theorem redeem_answers {body : Json} {out : Except Thrown FunctionUrlResult}
    (h : (redeem domain clientId body).Finishes es out) : Answers domain out := by
  unfold redeem at h
  split at h
  · obtain ⟨reply, fs, -, hret⟩ := Prog.finishes_ask.mp h
    obtain ⟨-, rfl⟩ := Prog.finishes_ret.mp hret
    intro res hres _
    exact ⟨reply, hres⟩
  · obtain ⟨-, rfl⟩ := Prog.finishes_ret.mp h
    exact answers_error (by decide)

theorem verifyFor_answers {row : ClientConfigRow} {event : FunctionUrlEvent}
    {out : Except Thrown FunctionUrlResult}
    (h : (verifyFor rt domain row event).Finishes es out) : Answers domain out := by
  unfold verifyFor at h
  split at h
  · obtain ⟨-, rfl⟩ := Prog.finishes_ret.mp h
    exact answers_error (by decide)
  · split at h
    · exact refresh_answers h
    · exact redeem_answers h

theorem authVerify_answers {tenantParent : Option String} {event : FunctionUrlEvent}
    {out : Except Thrown FunctionUrlResult}
    (h : (authVerify rt tenantParent event).Finishes es out) : ∃ domain, Answers domain out := by
  unfold authVerify at h
  simp only at h
  split at h
  · obtain ⟨-, rfl⟩ := Prog.finishes_ret.mp h
    exact ⟨"", answers_error (by decide)⟩
  · split at h
    · obtain ⟨-, rfl⟩ := Prog.finishes_ret.mp h
      exact ⟨"", answers_error (by decide)⟩
    · obtain ⟨loaded, fs, -, hrest⟩ := Prog.finishes_ask.mp h
      cases loaded with
      | error err =>
          obtain ⟨-, rfl⟩ := Prog.finishes_ret.mp hrest
          exact ⟨"", fun res hres => nomatch hres⟩
      | ok found =>
          cases found with
          | none =>
              obtain ⟨-, rfl⟩ := Prog.finishes_ret.mp hrest
              exact ⟨"", answers_error (by decide)⟩
          | some row => exact ⟨_, verifyFor_answers hrest⟩

/-- Only what Cognito's tokens become is answered with 200. -/
theorem answer_lines {reply : Except SdkError AuthenticationResult}
    (h : answer domain reply = .ok res) (h200 : res.statusCode = 200) :
    ∃ idToken refreshToken lines, setCookies domain idToken refreshToken = .ok lines ∧
      res.cookies = some lines := by
  unfold answer at h
  split at h
  · cases h
    exact absurd h200 (by decide)
  · simp only at h
    split at h
    · cases h
      exact absurd h200 (by decide)
    · rename_i result _
      cases hlines : setCookies domain (result.idToken.getD "") result.refreshToken with
      | error err =>
          rw [hlines] at h
          cases h
      | ok lines =>
          rw [hlines] at h
          cases h
          exact ⟨_, _, lines, hlines, rfl⟩

end Runs

/-- A line begins with name and value. -/
theorem setCookie_ok {name value line : String} {opts : SignIn.CookieOptions}
    (h : setCookie name value opts = .ok line) :
    ∃ rest, line.toList = name.toList ++ '=' :: (value.toList ++ ';' :: rest) := by
  unfold setCookie buildSetCookie at h
  split at h
  · cases h
  · rename_i built hbuilt
    cases h
    split at hbuilt
    · cases hbuilt
    · split at hbuilt
      · cases hbuilt
      · cases hbuilt
        simp only [String.intercalate_cons_cons, String.toList_append, List.append_assoc]
        exact ⟨_, rfl⟩

theorem setCookies_line {domain idToken line : String} {refreshToken : Option String}
    {lines : List String} (h : setCookies domain idToken refreshToken = .ok lines)
    (hline : line ∈ lines) :
    ∃ name value opts, setCookie name value opts = .ok line ∧
      (name = "id-token" ∨ name = "refresh-token") := by
  unfold setCookies at h
  cases hid : setCookie "id-token" idToken ⟨.lax, "/", domain, idTokenMaxAge⟩ with
  | error err =>
      rw [hid] at h
      cases h
  | ok idCookie =>
      rw [hid] at h
      simp only [bind, Except.bind] at h
      split at h
      · cases h
        rw [List.mem_singleton.mp hline]
        exact ⟨_, _, _, hid, .inl rfl⟩
      · split at h
        · cases h
        · rename_i refreshCookie hrefresh
          cases h
          rcases List.mem_cons.mp hline with rfl | hline
          · exact ⟨_, _, _, hid, .inl rfl⟩
          · rw [List.mem_singleton.mp hline]
            exact ⟨_, _, _, hrefresh, .inr rfl⟩

theorem cookieName_plain {name : String} (h : name = "id-token" ∨ name = "refresh-token") :
    name.toList ≠ [] ∧ trim name.toList ≠ Edge.idTokenCookie.toList ∧
      ∀ d ∈ name.toList, d ≠ ';' ∧ d ≠ '=' ∧ Cookie.isBlank d = false := by
  rcases h with rfl | rfl
  · decide
  · decide

/-- None of the cookies that are set is the one that the edge looks for. -/
theorem kept_not_idToken {rt : Runtime} {tenantParent : Option String} {event : FunctionUrlEvent}
    {es : List (Event Request Reply)} {idToken : String} {lines : List String}
    (h : SignsIn rt tenantParent event es idToken lines) {c : Cookie} (hc : c ∈ kept lines) :
    ¬ IsIdToken c := by
  obtain ⟨res, hrun, h200, hlines⟩ := h.finishes
  obtain ⟨domain, hanswers⟩ := authVerify_answers hrun
  obtain ⟨reply, hreply⟩ := hanswers res rfl h200
  obtain ⟨token, refreshToken, lines', hset, hsame⟩ := answer_lines hreply h200
  obtain rfl : lines' = lines := Option.some.inj (hsame.symm.trans hlines)
  obtain ⟨line, hline, hstored⟩ := List.mem_filterMap.mp hc
  obtain ⟨name, value, opts, hbuilt, hname⟩ := setCookies_line hset hline
  obtain ⟨rest, htext⟩ := setCookie_ok hbuilt
  obtain ⟨hne, hother, hplain⟩ := cookieName_plain hname
  rw [htext, Cookie.stored_append hne hplain] at hstored
  cases hstored
  exact hother

/-! ## Writer and reader -/

variable {lines : List String} {others sent : List Cookie} {idToken : String}

theorem SentBack.sent_sendable (h : SentBack lines others sent) : ∀ c ∈ sent, c.Sendable := by
  intro c hc
  rcases List.mem_append.mp (h.perm.mem_iff.mp hc) with hkept | hother
  · obtain ⟨line, -, hstored⟩ := List.mem_filterMap.mp hkept
    exact Cookie.stored_sendable hstored
  · exact h.sendable c hother

theorem reads_back_iff {rt : Runtime} {tenantParent : Option String} {event : FunctionUrlEvent}
    {es : List (Event Request Reply)} (h : SignsIn rt tenantParent event es idToken lines)
    (hsent : SentBack lines others sent) :
    read sent = some idToken ↔ ∃ c ∈ others, (sent.find? fun c => IsIdToken c) = some c ∧
      Edge.unquote (trim c.value) = idToken.toList := by
  rw [read_eq hsent.sent_sendable, Option.map_eq_some_iff]
  constructor
  · rintro ⟨c, hfind, hvalue⟩
    have hc : IsIdToken c := by simpa using List.find?_some hfind
    have hmem := hsent.perm.mem_iff.mp (List.mem_of_find?_eq_some hfind)
    rcases List.mem_append.mp hmem with hkept | hother
    · exact absurd hc (kept_not_idToken h hkept)
    · exact ⟨c, hother, hfind, by rw [← hvalue, String.toList_ofList]⟩
  · rintro ⟨c, -, hfind, hvalue⟩
    exact ⟨c, hfind, by rw [hvalue, String.ofList_toList]⟩

theorem IsJwtShape.chars (h : IsJwtShape idToken) :
    ∀ c ∈ idToken.toList, c.isAlphanum = true ∨ c = '-' ∨ c = '_' ∨ c = '.' := by
  obtain ⟨header, payload, signature, htext, hheader, hpayload, hsignature⟩ := h
  intro c hc
  have hpart : ∀ part, IsBase64Url part → c ∈ part →
      c.isAlphanum = true ∨ c = '-' ∨ c = '_' ∨ c = '.' := by
    intro part hpart hc
    rcases hpart.2 c hc with halnum | hdash | hscore
    · exact .inl halnum
    · exact .inr (.inl hdash)
    · exact .inr (.inr (.inl hscore))
  rw [htext, List.mem_append, List.mem_cons, List.mem_append, List.mem_cons] at hc
  rcases hc with hc | hc | hc | hc | hc
  · exact hpart header hheader hc
  · exact .inr (.inr (.inr hc))
  · exact hpart payload hpayload hc
  · exact .inr (.inr (.inr hc))
  · exact hpart signature hsignature hc

/-- Nothing in a token means anything to a cookie. -/
theorem IsJwtShape.plain (h : IsJwtShape idToken) : ∀ c ∈ idToken.toList,
    (c ≠ ';' ∧ Cookie.isBlank c = false) ∧ isSpace c = false ∧ c ≠ '"' := by
  intro c hc
  have hcode : (45 ≤ c.toNat ∧ c.toNat ≤ 57) ∨ (65 ≤ c.toNat ∧ c.toNat ≤ 122) := by
    rcases h.chars c hc with halnum | rfl | rfl | rfl
    · rw [Text.isAlphanum_iff] at halnum
      omega
    · exact .inl (by decide)
    · exact .inr (by decide)
    · exact .inl (by decide)
  have hne : ∀ d : Char, ¬ ((45 ≤ d.toNat ∧ d.toNat ≤ 57) ∨ (65 ≤ d.toNat ∧ d.toNat ≤ 122)) →
      c ≠ d := by
    rintro d hd rfl
    exact hd hcode
  have hspace : isSpace c = false := by
    unfold isSpace
    simp only [Bool.or_eq_false_iff, Bool.and_eq_false_iff, decide_eq_false_iff_not,
      beq_eq_false_iff_ne]
    omega
  refine ⟨⟨hne ';' (by decide), ?_⟩, hspace, hne '"' (by decide)⟩
  simp only [Cookie.isBlank, Bool.or_eq_false_iff, beq_eq_false_iff_ne]
  exact ⟨hne ' ' (by decide), hne '\t' (by decide)⟩

theorem trim_eq_self {s : List Char} (h : ∀ c ∈ s, isSpace c = false) : trim s = s := by
  have hself : ∀ s : List Char, (∀ c ∈ s, isSpace c = false) → trimStart s = s := by
    intro s h
    cases s with
    | nil => rfl
    | cons c s => rw [trimStart, List.dropWhile_cons_of_neg (by simp [h c List.mem_cons_self])]
  rw [trim, hself s h, hself _ (by simpa using h), List.reverse_reverse]

/-- The names are all that keeps them apart: a token written under the
edge's name is read as it was. -/
theorem read_same_name {opts : SignIn.CookieOptions} {line : String} (hjwt : IsJwtShape idToken)
    (hline : setCookie Edge.idTokenCookie idToken opts = .ok line)
    (hsent : SentBack [line] others sent) (hothers : ∀ c ∈ others, ¬ IsIdToken c) :
    read sent = some idToken := by
  obtain ⟨rest, htext⟩ := setCookie_ok hline
  have hstored : Cookie.stored line.toList = some ⟨Edge.idTokenCookie.toList, idToken.toList⟩ := by
    rw [htext]
    exact Cookie.stored_value (by decide) (by decide) fun c hc => (hjwt.plain c hc).1
  have hkept : kept [line] = [⟨Edge.idTokenCookie.toList, idToken.toList⟩] := by
    simp [kept, hstored]
  have hown : (⟨Edge.idTokenCookie.toList, idToken.toList⟩ : Cookie) ∈ sent :=
    hsent.perm.mem_iff.mpr (by simp [hkept])
  have hfind : (sent.find? fun c => IsIdToken c) =
      some ⟨Edge.idTokenCookie.toList, idToken.toList⟩ := by
    cases hfound : sent.find? fun c => IsIdToken c with
    | none =>
        have hnone := List.find?_eq_none.mp hfound _ hown
        exact absurd (decide_eq_true rfl) hnone
    | some c =>
        have hc : IsIdToken c := by simpa using List.find?_some hfound
        have hmem := hsent.perm.mem_iff.mp (List.mem_of_find?_eq_some hfound)
        rw [hkept, List.singleton_append, List.mem_cons] at hmem
        rcases hmem with rfl | hother
        · rfl
        · exact absurd hc (hothers c hother)
  have hvalue : Edge.unquote (trim idToken.toList) = idToken.toList := by
    rw [trim_eq_self fun c hc => (hjwt.plain c hc).2.1, Edge.unquote, if_neg]
    rintro ⟨-, hquote, -⟩
    exact (hjwt.plain '"' (List.mem_of_mem_head? hquote)).2.2 rfl
  rw [read_eq hsent.sent_sendable, hfind, Option.map_some, hvalue, String.ofList_toList]

/-! ## A sign-in whose token is not seen -/

namespace Small

def rt : Runtime := .tabulated []
  [] (fun _ => some (.obj [("session", .str "s"), ("challengeAnswer", .str "t"),
    ("email", .str "a@example.com")])) sha_nil hmac_nil

def event : FunctionUrlEvent where
  headers := some [("host", "acme.tenants.example.com")]
  body := some "\x7b\"session\":\"s\",\"challengeAnswer\":\"t\",\"email\":\"a@example.com\"\x7d"

def row : ClientConfigRow where
  clientId := "client-1"
  subdomain := "acme"
  tenantId := "acme"
  siteBaseUrl := "https://acme.tenants.example.com"
  allowedEmailDomains := []
  createdAt := "2026-01-01T00:00:00.000Z"
  updatedAt := none

def token : String := "eyJh.eyJz.c2ln"

def es : List (Event Request Reply) :=
  [⟨.loadClientConfigBySubdomain "acme", .ok (some row)⟩,
    ⟨.respondToAuthChallenge "client-1" "s" "a@example.com" "t", .ok ⟨some token, none⟩⟩]

def line : String :=
  "id-token=eyJh.eyJz.c2ln; Max-Age=900; Path=/; Domain=acme.tenants.example.com; SameSite=Lax; HttpOnly; Secure"

def own : Cookie := ⟨"id-token".toList, token.toList⟩
def legacy : Cookie := ⟨"vestibulum_id_token".toList, token.toList⟩

theorem signsIn : SignsIn rt (some "tenants.example.com") event es token [line] where
  finishes := by
    have htenant : tenantOf rt "tenants.example.com" event = some "acme" := by decide
    have hanswer : answer ("acme" ++ "." ++ "tenants.example.com") (.ok ⟨some token, none⟩) =
        .ok (signedIn [line]) := by
      rfl
    refine ⟨signedIn [line], ?_, rfl, rfl⟩
    unfold authVerify
    simp only [Option.getD_some, htenant]
    exact ⟨_, rfl, _, rfl, hanswer ▸ rfl⟩
  issued := .redeemed (List.mem_cons_of_mem _ List.mem_cons_self) rfl

theorem kept_line : kept [line] = [own] := by decide

theorem sentBack : SentBack [line] [legacy] [legacy, own] where
  perm := by
    rw [kept_line]
    exact List.Perm.swap _ _ _
  sendable := by
    intro c hc
    rw [List.mem_singleton.mp hc]
    exact ⟨by decide, by decide, by decide⟩
  otherNames := by
    rw [kept_line]
    decide

theorem reads_legacy : read [legacy, own] = some token :=
  (reads_back_iff signsIn sentBack).mpr ⟨legacy, by simp, rfl, by decide⟩

theorem not_read : ¬ ∀ (rt : Runtime) (tenantParent : Option String) (event : FunctionUrlEvent)
    (es : List (Event Request Reply)) (idToken : String) (lines : List String)
    (others sent : List Cookie), IsJwtShape idToken →
      SignsIn rt tenantParent event es idToken lines → SentBack lines others sent →
        read sent = some idToken := by
  intro hall
  have hjwt : IsJwtShape token := by
    refine ⟨"eyJh".toList, "eyJz".toList, "c2ln".toList, rfl, ?_, ?_, ?_⟩
    all_goals exact ⟨by decide, by decide⟩
  have hsent : SentBack [line] [] [own] := by
    constructor
    · rw [kept_line, List.append_nil]
    · exact fun c hc => (nomatch hc)
    · exact fun c hc => (nomatch hc)
  have hread := hall _ _ _ _ _ _ _ _ hjwt signsIn hsent
  revert hread
  decide

end Small

end SaasFoundation.Vestibulum.SharedDistribution.AuthVerify
