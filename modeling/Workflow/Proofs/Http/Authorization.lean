import Workflow.Proofs.Fallible
import Workflow.Proofs.Table
import Workflow.Rehearsal.Stage

/-!
# Who a request says that it comes from

Names of headers are compared without case where they are received, but not where a secret is put
among them. So a step that gives a header of its own, and a secret as well, sends only one of them
if it writes the name of the header as the secret would be sent, and both of them otherwise. A user
in the URL takes the place of either.
-/

namespace Workflow

namespace Http

variable {parameters headers : Fields} {sent : List (String × String)} {secret : Option String}
  {request : Request}

/-! ### What a step says -/

/-- A header in which a request says who sends it. -/
def IsAuthorization (name : String) : Prop := Text.lower name = "authorization"

instance (name : String) : Decidable (IsAuthorization name) :=
  inferInstanceAs (Decidable (Text.lower name = "authorization"))

/-- The headers that a step gives, as far as they can be read. -/
def givenHeaders (parameters : Fields) : Fields :=
  (Pairs.entriesOf (parameters.get "headers")).toOption.getD []

/-- The user in the URL that a step gives, as far as it can be read. -/
def givenUser (parameters : Fields) : Option (String × String) :=
  match parameters.get "url" with
  | .str address => (Url.parse address).toOption.bind (·.user)
  | _ => none

/-- What a step itself says about the sender. -/
def ownAuthorizations (headers : Fields) : List String :=
  headers.filterMap fun
    | (.str name, .str value) => if IsAuthorization name then some value else none
    | _ => none

/-- How a user says that it is the sender. -/
def basicOf (user : String × String) : String :=
  "Basic " ++ Text.Base64.encodeText (user.1 ++ ":" ++ user.2)

/-- A secret as it is sent, if it is one. -/
def bearer? (secret : Option String) : Option String :=
  (secret.filter (· ≠ "")).map ("Bearer " ++ ·)

theorem mem_bearer?_iff {token : String} :
    "Bearer " ++ token ∈ (bearer? secret).toList ↔ secret = some token ∧ token ≠ "" := by
  cases secret with
  | none => simp [bearer?]
  | some text =>
      by_cases hempty : text = ""
      · simp only [bearer?, hempty]
        simp
      · simp only [bearer?, Option.filter, ne_eq, hempty]
        simp only [decide_not, decide_false, Bool.not_false, ↓reduceIte, Option.map_some,
          Option.toList_some, List.mem_singleton, String.append_right_inj, Option.some.injEq]
        exact ⟨fun heq => ⟨heq.symm, heq ▸ hempty⟩, fun heq => heq.1.symm⟩

theorem bearer?_eq_none_iff :
    bearer? secret = none ↔ ∀ token, ¬(secret = some token ∧ token ≠ "") := by
  constructor
  · intro hnone token hsome
    have hmem := mem_bearer?_iff.mpr hsome
    rw [hnone] at hmem
    cases hmem
  · intro hnone
    unfold bearer?
    cases secret with
    | none => rfl
    | some token => simpa using hnone token

theorem bearer_ne_basicOf (token : String) (user : String × String) :
    "Bearer " ++ token ≠ basicOf user := by
  intro heq
  have htexts := congrArg String.toList heq
  simp [basicOf] at htexts

/-! ### What is sent -/

theorem eq_of_asciiText {s s' : String} (h : asciiText s = .ok s') : s' = s := by
  unfold asciiText at h
  dsimp only at h
  split at h
  · cases h
    rfl
  · cases h

/-- A header that is sent, as a step gives it. -/
def entryOf (header : String × String) : Scalar × Value := (.str header.1, .str header.2)

/-- Headers are sent as they are given. -/
theorem eq_entryOf {entry : Scalar × Value} {header : String × String}
    (h : headerOf entry = .ok header) : entry = entryOf header := by
  unfold headerOf at h
  split at h
  · obtain ⟨name, hname, hrest⟩ := bind_eq_ok_iff.mp h
    obtain ⟨value, hvalue, hheader⟩ := bind_eq_ok_iff.mp hrest
    cases hheader
    rw [eq_of_asciiText hname, eq_of_asciiText hvalue]
    rfl
  · obtain ⟨_, _, hthrown⟩ := bind_eq_ok_iff.mp h
    cases hthrown
  · cases h

theorem eq_map_entryOf (h : headers.mapM headerOf = .ok sent) : headers = sent.map entryOf := by
  have hsame := map_eq_of_mapM (fun _ _ hheader => (eq_entryOf hheader).symm) h
  rw [hsame, List.map_id']

/-- The query of a request: the one that is given, or else that of the URL. -/
def queryFor (parameters : Fields) (url : Url) : Except Failure (List (String × String)) :=
  match parameters.get "params" with
  | .null => .ok (groupPairs (queryPairs url.query))
  | params => queryOf params

/-- The URL of a request has to be a text. -/
def urlText : Value → Except Failure String
  | .str address => .ok address
  | _ => .error (.wrongType "Invalid type for url")

/-- A request is put together step by step. -/
theorem ofParameters_eq (parameters : Fields) (secret : Option String) :
    Request.ofParameters parameters secret = do
      let given ← addressOf parameters
      let headers ← Pairs.entriesOf (parameters.get "headers")
      let address ← urlText given
      let url ← Url.parse address
      let sent ← (withToken headers secret).mapM headerOf
      let query ← queryFor parameters url
      let body ← bodyOf (parameters.get "json")
      return { method := methodOf parameters, address, scheme := url.scheme, host := url.host,
               path := url.path, query, headers := withUser sent url.user, body } := by
  unfold Request.ofParameters queryFor
  refine bind_congr fun given => bind_congr fun headers => ?_
  cases given with
  | scalar value =>
      cases value with
      | str address =>
          refine bind_congr fun address => bind_congr fun url => bind_congr fun sent => ?_
          generalize parameters.get "params" = params
          cases params with
          | scalar value => cases value <;> rfl
          | _ => rfl
      | _ => rfl
  | _ => rfl

/-- All that a request is made of. -/
theorem ofParameters_eq_ok_iff : Request.ofParameters parameters secret = .ok request ↔
    ∃ address headers url sent query body, addressOf parameters = .ok (.str address) ∧
      Pairs.entriesOf (parameters.get "headers") = .ok headers ∧ Url.parse address = .ok url ∧
      (withToken headers secret).mapM headerOf = .ok sent ∧
      queryFor parameters url = .ok query ∧ bodyOf (parameters.get "json") = .ok body ∧
      { method := methodOf parameters, address, scheme := url.scheme, host := url.host,
        path := url.path, query, headers := withUser sent url.user, body } = request := by
  rw [ofParameters_eq]
  simp only [bind_eq_ok_iff]
  constructor
  · rintro ⟨given, hgiven, headers, hheaders, address, haddress, url, hurl, sent, hsent, query,
      hquery, body, hbody, hrequest⟩
    unfold urlText at haddress
    split at haddress
    · cases haddress
      cases hrequest
      exact ⟨_, _, _, _, _, _, hgiven, hheaders, hurl, hsent, hquery, hbody, rfl⟩
    · cases haddress
  · rintro ⟨address, headers, url, sent, query, body, haddress, hheaders, hurl, hsent, hquery,
      hbody, rfl⟩
    exact ⟨_, haddress, _, hheaders, _, rfl, _, hurl, _, hsent, _, hquery, _, hbody, rfl⟩

/-- The headers that a secret adds to those of a step. -/
def tokenHeaders (headers : Fields) (secret : Option String) : List (String × String) :=
  if Table.contains headers authorizationName then []
  else (bearer? secret).toList.map ("Authorization", ·)

theorem tokenHeaders_eq_nil_iff : tokenHeaders headers secret = [] ↔
    bearer? secret = none ∨ Table.contains headers authorizationName = true := by
  unfold tokenHeaders
  cases bearer? secret <;> simp

theorem withToken_eq (headers : Fields) (secret : Option String) :
    withToken headers secret = headers ++ (tokenHeaders headers secret).map entryOf := by
  unfold withToken tokenHeaders bearer?
  generalize secret.filter (· ≠ "") = token
  cases token with
  | none => by_cases hexact : Table.contains headers authorizationName <;> simp [hexact]
  | some token =>
      by_cases hexact : Table.contains headers authorizationName
      · simp [hexact]
      · simp only [hexact]
        rfl

/-- What can be sent with a secret can be sent without it, and the secret comes after it. -/
theorem exists_sent (h : Request.ofParameters parameters secret = .ok request) :
    ∃ own : List (String × String), givenHeaders parameters = own.map entryOf ∧
      request.headers =
        withUser (own ++ tokenHeaders (givenHeaders parameters) secret) (givenUser parameters) ∧
      Request.ofParameters parameters none =
        .ok { request with headers := withUser own (givenUser parameters) } := by
  obtain ⟨address, headers, url, sent, query, body, haddress, hheaders, hurl, hsent, hquery, hbody,
    rfl⟩ := ofParameters_eq_ok_iff.mp h
  have hgiven : givenHeaders parameters = headers := by
    rw [givenHeaders, hheaders]
    rfl
  have huser : givenUser parameters = url.user := by
    have hurlGiven : parameters.get "url" = .str address := by
      unfold addressOf at haddress
      dsimp only at haddress
      split at haddress
      · exact Except.ok.inj haddress
      · cases haddress
    rw [givenUser, hurlGiven]
    dsimp only
    rw [hurl]
    rfl
  rw [withToken_eq, List.mapM_append] at hsent
  obtain ⟨own, hown, hrest⟩ := bind_eq_ok_iff.mp hsent
  obtain ⟨tokens, htokens, happend⟩ := bind_eq_ok_iff.mp hrest
  cases happend
  rw [hgiven, huser]
  have hsame : tokens = tokenHeaders headers secret := by
    refine List.map_injective_iff.mpr ?_ (eq_map_entryOf htokens).symm
    rintro ⟨name, value⟩ ⟨name', value'⟩ heq
    simpa [entryOf] using heq
  refine ⟨own, eq_map_entryOf hown, by rw [hsame], ?_⟩
  refine ofParameters_eq_ok_iff.mpr ⟨address, headers, url, own, query, body, haddress, hheaders,
    hurl, ?_, hquery, hbody, rfl⟩
  rw [withToken_eq, tokenHeaders]
  simpa [bearer?] using hown

/-! ### What a request says -/

theorem isAuthorization_authorization : IsAuthorization "Authorization" := by
  unfold IsAuthorization
  decide +kernel

theorem isAuthorization_of_mem_tokenHeaders {header : String × String}
    (h : header ∈ tokenHeaders headers secret) : IsAuthorization header.1 := by
  unfold tokenHeaders at h
  split at h
  · cases h
  · obtain ⟨token, -, rfl⟩ := List.mem_map.mp h
    exact isAuthorization_authorization

/-- A user leaves nothing of a secret. -/
theorem withUser_tokenHeaders (own : List (String × String)) (headers : Fields)
    (secret : Option String) (user : String × String) :
    withUser (own ++ tokenHeaders headers secret) (some user) = withUser own (some user) := by
  have hnone : (tokenHeaders headers secret).filter (Text.lower ·.1 ≠ "authorization") = [] := by
    refine List.filter_eq_nil_iff.mpr fun header hmem => ?_
    have hname := isAuthorization_of_mem_tokenHeaders hmem
    simpa [IsAuthorization] using hname
  dsimp only [withUser]
  rw [List.filter_append, hnone, List.append_nil]

theorem headerValues_authorization (request : Request) : request.headerValues "Authorization" =
    (request.headers.filter fun header => IsAuthorization header.1).map (·.2) := by
  unfold Request.headerValues
  rw [show Text.lower "Authorization" = "authorization" from isAuthorization_authorization]
  rfl

/-- Who is named in the headers is named in those that are sent. -/
theorem ownAuthorizations_map_entryOf (sent : List (String × String)) :
    ownAuthorizations (sent.map entryOf) =
      (sent.filter fun header => IsAuthorization header.1).map (·.2) := by
  induction sent with
  | nil => rfl
  | cons header sent ih =>
      unfold ownAuthorizations at ih ⊢
      by_cases hname : IsAuthorization header.1 <;> simp_all [entryOf]

/-- A header of exactly the name is a header of the name. -/
theorem ownAuthorizations_ne_nil (h : Table.contains (sent.map entryOf) authorizationName) :
    ownAuthorizations (sent.map entryOf) ≠ [] := by
  obtain ⟨_, hmem, hname⟩ := List.mem_map.mp (Table.find?_isSome_iff.mp h)
  obtain ⟨header, hsent, rfl⟩ := List.mem_map.mp hmem
  have hexact : header.1 = "Authorization" := by simpa [entryOf, authorizationName] using hname
  rw [ownAuthorizations_map_entryOf]
  refine List.ne_nil_of_mem (List.mem_map_of_mem (List.mem_filter.mpr ⟨hsent, ?_⟩))
  rw [hexact]
  exact decide_eq_true isAuthorization_authorization

/-- A request says what its URL says, or else what its step says and then the secret. -/
theorem headerValues_eq (h : Request.ofParameters parameters secret = .ok request) :
    request.headerValues "Authorization" =
      match givenUser parameters with
      | some user => [basicOf user]
      | none => ownAuthorizations (givenHeaders parameters) ++
          (tokenHeaders (givenHeaders parameters) secret).map (·.2) := by
  obtain ⟨own, hgiven, hheaders, -⟩ := exists_sent h
  rw [headerValues_authorization, hheaders]
  cases givenUser parameters with
  | some user =>
      -- The client drops every header of the name, however it is spelled.
      have hnone (headers : List (String × String)) :
          (headers.filter (Text.lower ·.1 ≠ "authorization")).filter
            (fun header => IsAuthorization header.1) = [] := by
        rw [List.filter_filter, List.filter_eq_nil_iff]
        intro header _ hboth
        obtain ⟨hname, hother⟩ := Bool.and_eq_true_iff.mp hboth
        exact of_decide_eq_true hother (of_decide_eq_true hname)
      dsimp only [withUser]
      rw [List.filter_append, hnone]
      simp [isAuthorization_authorization, basicOf]
  | none =>
      have htokens : (tokenHeaders (givenHeaders parameters) secret).filter
          (fun header => IsAuthorization header.1) =
            tokenHeaders (givenHeaders parameters) secret :=
        List.filter_eq_self.mpr fun header hmem =>
          decide_eq_true (isAuthorization_of_mem_tokenHeaders hmem)
      dsimp only [withUser]
      rw [List.filter_append, List.map_append, htokens, hgiven, ownAuthorizations_map_entryOf]

/-- A request is sent if it can be put together, and not otherwise. -/
theorem ofParameters_of_sendRequest (stage : Stage) (incoming : Fields)
    (h : (stage.sendRequest ⟨parameters, secret, incoming⟩).2.record.requests =
      stage.record.requests ++ [request]) :
    Request.ofParameters parameters secret = .ok request := by
  unfold Stage.sendRequest at h
  dsimp only at h
  split at h
  · simp at h
  · rename_i request' hrequest
    have hserved : ((stage.noteRequest request').serve request').2.record.requests =
        stage.record.requests ++ [request'] := by
      unfold Stage.serve
      split
      · rfl
      · split <;> rfl
    rw [hserved] at h
    rw [hrequest, List.append_cancel_left h |> List.singleton_inj.mp]

/-! ### What a request should say -/

/-- A request says at most once who sends it: what its step says, and then nothing of the secret is
in it, or else what the secret says. -/
structure Request.IdentifiesOnce (request : Request) (parameters : Fields)
    (secret : Option String) : Prop where
  atMostOnce : (request.headerValues "Authorization").length ≤ 1
  own : ownAuthorizations (givenHeaders parameters) ≠ [] →
    ∃ value ∈ ownAuthorizations (givenHeaders parameters),
      request.headerValues "Authorization" = [value]
  hidden : ownAuthorizations (givenHeaders parameters) ≠ [] →
    Request.ofParameters parameters none = .ok request
  bearer : ownAuthorizations (givenHeaders parameters) = [] → ∀ token,
    "Bearer " ++ token ∈ request.headerValues "Authorization" ↔ secret = some token ∧ token ≠ ""

/-- No more than one says who sends a request: the user in the URL, unless a header says the same;
or else a header of the step, if it stands exactly where a secret would; or else the secret. -/
def HasOneSender (parameters : Fields) (secret : Option String) : Prop :=
  match givenUser parameters with
  | some user =>
    basicOf user ∈ ownAuthorizations (givenHeaders parameters) ∨
      ownAuthorizations (givenHeaders parameters) = [] ∧ bearer? secret = none
  | none =>
    ownAuthorizations (givenHeaders parameters) = [] ∨
      (∃ value, ownAuthorizations (givenHeaders parameters) = [value]) ∧
        (bearer? secret = none ∨
          Table.contains (givenHeaders parameters) authorizationName = true)

/-- The user in the URL speaks over the step and the secret, so both have to be silent, or the step
has to say the same. -/
theorem identifiesOnce_iff_of_user {user : String × String}
    (h : Request.ofParameters parameters secret = .ok request)
    (huser : givenUser parameters = some user) :
    request.IdentifiesOnce parameters secret ↔
      basicOf user ∈ ownAuthorizations (givenHeaders parameters) ∨
        ownAuthorizations (givenHeaders parameters) = [] ∧ bearer? secret = none := by
  obtain ⟨own, -, hheaders, hbare⟩ := exists_sent h
  have hvalues := headerValues_eq h
  rw [huser] at hvalues hheaders hbare
  rw [withUser_tokenHeaders] at hheaders
  rw [← hheaders] at hbare
  constructor
  · intro hlaw
    by_cases hsaid : ownAuthorizations (givenHeaders parameters) = []
    · refine .inr ⟨hsaid, bearer?_eq_none_iff.mpr fun token hsecret => ?_⟩
      have hsent := (hlaw.bearer hsaid token).mpr hsecret
      rw [hvalues] at hsent
      exact bearer_ne_basicOf token user (List.mem_singleton.mp hsent)
    · obtain ⟨value, hmem, hvalue⟩ := hlaw.own hsaid
      rw [hvalues] at hvalue
      exact .inl (List.singleton_inj.mp hvalue ▸ hmem)
  · intro hone
    refine ⟨by simp [hvalues], fun hsaid => ?_, fun _ => hbare, fun hsaid token => ?_⟩
    · obtain hmem | ⟨hnone, -⟩ := hone
      · exact ⟨_, hmem, hvalues⟩
      · exact absurd hnone hsaid
    · obtain hmem | ⟨-, hnone⟩ := hone
      · rw [hsaid] at hmem
        cases hmem
      · rw [hvalues]
        refine iff_of_false (fun hsent => ?_) (bearer?_eq_none_iff.mp hnone token)
        exact bearer_ne_basicOf token user (List.mem_singleton.mp hsent)

/-- Where the step speaks, it speaks alone only if no secret is added to its headers. -/
theorem identifiesOnce_iff_of_noUser
    (h : Request.ofParameters parameters secret = .ok request)
    (huser : givenUser parameters = none) :
    request.IdentifiesOnce parameters secret ↔
      ownAuthorizations (givenHeaders parameters) = [] ∨
        (∃ value, ownAuthorizations (givenHeaders parameters) = [value]) ∧
          (bearer? secret = none ∨
            Table.contains (givenHeaders parameters) authorizationName = true) := by
  obtain ⟨own, hgiven, hheaders, hbare⟩ := exists_sent h
  have hvalues := headerValues_eq h
  rw [huser] at hvalues hheaders hbare
  dsimp only [withUser] at hvalues hheaders hbare
  rw [← tokenHeaders_eq_nil_iff]
  constructor
  · intro hlaw
    by_cases hsaid : ownAuthorizations (givenHeaders parameters) = []
    · exact .inl hsaid
    · have hlength := hlaw.atMostOnce
      rw [hvalues, List.length_append, List.length_map] at hlength
      have hsome := List.length_pos_iff.mpr hsaid
      exact .inr ⟨List.length_eq_one_iff.mp (by omega), List.length_eq_zero_iff.mp (by omega)⟩
  · rintro (hsaid | ⟨⟨value, hsaid⟩, hnone⟩)
    · -- A step that says nothing has no header of exactly the name either.
      have hexact : Table.contains (givenHeaders parameters) authorizationName = false := by
        rw [← Bool.not_eq_true, hgiven]
        exact fun hexact => ownAuthorizations_ne_nil hexact (hgiven ▸ hsaid)
      have hbearer : request.headerValues "Authorization" = (bearer? secret).toList := by
        rw [hvalues, hsaid, tokenHeaders, hexact]
        simp [Function.comp_def]
      refine ⟨?_, fun hsome => absurd hsaid hsome, fun hsome => absurd hsaid hsome,
        fun _ token => ?_⟩
      · rw [hbearer]
        exact Option.length_toList_le
      · rw [hbearer]
        exact mem_bearer?_iff
    · rw [hnone] at hvalues hheaders
      rw [List.append_nil] at hheaders
      rw [hsaid] at hvalues
      refine ⟨by simp [hvalues], fun _ => ⟨value, ?_, hvalues⟩, fun _ => ?_,
        fun hsaid' => ?_⟩
      · rw [hsaid]
        exact List.mem_singleton_self value
      · rw [← hheaders] at hbare
        exact hbare
      · rw [hsaid] at hsaid'
        cases hsaid'

/-- A request says once who sends it if and only if there is one who does. -/
theorem request_identifies_once_iff (stage : Stage) (incoming : Fields)
    (h : (stage.sendRequest ⟨parameters, secret, incoming⟩).2.record.requests =
      stage.record.requests ++ [request]) :
    request.IdentifiesOnce parameters secret ↔ HasOneSender parameters secret := by
  have hrequest := ofParameters_of_sendRequest stage incoming h
  unfold HasOneSender
  cases huser : givenUser parameters with
  | some user => exact identifiesOnce_iff_of_user hrequest huser
  | none => exact identifiesOnce_iff_of_noUser hrequest huser

/-- A step that says who sends its request, in a header of some name. -/
def searching (name : String) : Fields :=
  [(.str "url", .str "https://api.example.com/search"),
    (.str "headers", .map [(.str name, .str "Basic x")])]

/-- A header of exactly the name takes the place of the secret. -/
theorem searching_identifies_once : ∃ request : Request,
    (Stage.sendRequest {} ⟨searching "Authorization", some "tok", []⟩).2.record.requests =
        [] ++ [request] ∧
      request.IdentifiesOnce (searching "Authorization") (some "tok") ∧
        request.headerValues "Authorization" = ["Basic x"] := by
  have hone : HasOneSender (searching "Authorization") (some "tok") := by
    unfold HasOneSender
    rw [show givenUser (searching "Authorization") = none by decide +kernel]
    exact .inr ⟨⟨"Basic x", by decide +kernel⟩, .inr (by decide +kernel)⟩
  exact ⟨_, rfl, (request_identifies_once_iff {} [] rfl).mpr hone, by decide +kernel⟩

/-- Beside a header in small letters the secret is sent as well. -/
theorem secret_is_sent_beside_lowercase : ∃ request : Request,
    (Stage.sendRequest {} ⟨searching "authorization", some "tok", []⟩).2.record.requests =
        [request] ∧
      request.headerValues "Authorization" = ["Basic x", "Bearer tok"] ∧
        ¬request.IdentifiesOnce (searching "authorization") (some "tok") := by
  refine ⟨_, rfl, by decide +kernel, ?_⟩
  intro hlaw
  exact absurd hlaw.atMostOnce (by decide +kernel)

end Http

end Workflow
