import Iot.Http.Gateway

/-!
# What a token lets a request do

The router reads the cleaned path of a request, the check of its token the path as it came, and the
ids in a path may be `.` or `..`. `routed_as_read_iff` says when the two readings agree: exactly if
no segment of the path is cleaned away.

Where they do not, a handler still works with the tenant that the token was checked against, so that
a token bound to a tenant reaches that tenant alone (`calls_authorized`). The exception is the
tenant `.`, whose token may create and list tenants (`rest_isolation`).
-/

namespace Iot.Http

open Text Json Contracts Platform Iot.Core Listing Data

variable {go : GoRuntime} {lib : Libraries} {router : Router}

/-! ## Cleaned paths -/

/-- The tokens of a cleaned path are the segments it keeps. -/
theorem pathTokens_cleanPath {path : Bytes} (hroot : path.head? = some 0x2F)
    (hne : cleanSegments path ≠ []) : pathTokens (cleanPath path) = cleanSegments path := by
  rw [pathTokens, cleanPath, if_pos hroot, List.drop_one, List.tail_cons]
  exact List.splitOn_intercalate 0x2F (fun _ h => not_mem_of_mem_cleanSegments h) hne

/-- The segments of an accepted path. -/
theorem splitOn_path {r : Request} {p : Parameters} (h : managementRequest go r = .ok p) :
    r.path.splitOn 0x2F = [] :: ascii "api" :: ascii "v1" :: p.segments := by
  have haccepted := managementRequest_accepted h
  have happend : apiPrefix ++ r.path.drop apiPrefix.length =
      ascii "/api/v1" ++ 0x2F :: r.path.drop apiPrefix.length := rfl
  rw [haccepted.api, happend, List.splitOn_append_cons_self, ← haccepted.reads.segments]
  have hwords : (ascii "/api/v1").splitOn 0x2F = [[], ascii "api", ascii "v1"] := by decide
  rw [hwords]
  rfl

/-- An accepted path is rooted. -/
theorem head_path {r : Request} {p : Parameters} (h : managementRequest go r = .ok p) :
    r.path.head? = some 0x2F := by
  rw [(managementRequest_accepted h).api]
  rfl

/-- What `path.Clean` keeps of an accepted path. -/
theorem cleanSegments_path {r : Request} {p : Parameters} (h : managementRequest go r = .ok p) :
    cleanSegments r.path =
      (p.segments.foldl (pushSegment true) [ascii "v1", ascii "api"]).reverse := by
  have hrooted : (r.path.head? == some 0x2F) = true := by rw [head_path h]; rfl
  rw [cleanSegments, hrooted, splitOn_path h]
  rfl

/-! ## Paths that are cleaned to the tenants -/

/-- The segments after those of the tenant. -/
def Parameters.below (p : Parameters) : List Bytes := p.segments.drop 2

/-- The path of a resource of a tenant. -/
theorem segments_eq_below {p : Parameters} (h : p.resource.ofTenant) :
    p.segments = ascii "tenants" :: p.tenantID :: p.below := by
  obtain ⟨resource, tenantID, deviceID, commandID, query⟩ := p
  cases resource with
  | tenants => cases h
  | devices | device | status | telemetry | deviceCommands | acknowledgements | commands
  | command => rfl

/-- A word of the paths below a tenant. -/
def TenantWord (word : Bytes) : Prop := word ≠ ascii "tenants"

/-- Below a tenant every second segment is a word. -/
theorem paced_below (p : Parameters) : Paced TenantWord p.below := by
  have hword : ∀ word ∈ [ascii "devices", ascii "commands", ascii "status", ascii "telemetry",
      ascii "acknowledgements"], PlainSegment word ∧ word ≠ ascii "tenants" := by decide
  obtain ⟨resource, tenantID, deviceID, commandID, query⟩ := p
  cases resource with
  | tenants => trivial
  | devices | commands => exact hword _ (by simp)
  | device | command => exact ⟨hword _ (by simp), trivial⟩
  | status | telemetry | deviceCommands => exact ⟨hword _ (by simp), hword _ (by simp)⟩
  | acknowledgements => exact ⟨hword _ (by simp), hword _ (by simp), hword _ (by simp)⟩

/-- The path of a device `..` or of a command `..`, which is cleaned to the path of its tenant. -/
def Parameters.Climbs (p : Parameters) : Prop :=
  p.resource = .device ∧ p.deviceID = ascii ".." ∨ p.resource = .command ∧ p.commandID = ascii ".."

/-- The base, with nothing on it. -/
theorem above_base {P : Bytes → Prop} (base : List Bytes) : Above P base base [] :=
  ⟨rfl, fun _ h => (nomatch h), fun _ h => (nomatch h)⟩

/-- A path that ends in a word is longer than what it starts from. -/
theorem foldl_word_ne (init : List Bytes) {base : List Bytes} {word : Bytes} (hbase : Settled base)
    (hinit : Paced TenantWord init) (hword : PlainSegment word) :
    (init ++ [word]).foldl (pushSegment true) base ≠ base := by
  intro heq
  obtain ⟨above, habove⟩ := foldl_pushSegment_paced hbase (above_base base) hinit
  rw [List.foldl_append, List.foldl_cons, List.foldl_nil, pushSegment_plain hword, habove.eq] at heq
  have hlength := congrArg List.length heq
  rw [List.length_cons, List.length_append] at hlength
  omega

/-- A word and one more segment are taken away by `..` alone. -/
theorem foldl_pair_eq_iff {base : List Bytes} {word segment : Bytes} (hword : PlainSegment word) :
    [word, segment].foldl (pushSegment true) base = base ↔ segment = ascii ".." := by
  rw [List.foldl_cons, List.foldl_cons, List.foldl_nil, pushSegment_plain hword]
  constructor
  · intro heq
    have hlength := congrArg List.length heq
    by_contra hdots
    rw [pushSegment] at hlength
    rw [if_neg hdots] at hlength
    split_ifs at hlength <;> simp only [List.length_cons] at hlength <;> omega
  · rintro rfl
    show popSegment true (word :: base) = base
    rw [popSegment, if_neg hword.2.2]

/-- A path below a tenant leaves nothing exactly if it climbs. -/
theorem foldl_below_eq_iff {p : Parameters} (htenant : p.resource.ofTenant) {base : List Bytes}
    (hbase : Settled base) : p.below.foldl (pushSegment true) base = base ↔ p.Climbs := by
  have hword : ∀ word ∈ [ascii "devices", ascii "commands", ascii "status", ascii "telemetry",
      ascii "acknowledgements"], PlainSegment word := by decide
  have hpaced := paced_below p
  obtain ⟨resource, tenantID, deviceID, commandID, query⟩ := p
  cases resource with
  | tenants => cases htenant
  | devices | commands =>
      refine iff_of_false (foldl_word_ne [] hbase trivial (hword _ (by simp))) ?_
      simp [Parameters.Climbs]
  | device | command =>
      refine (foldl_pair_eq_iff (hword _ (by simp))).trans ?_
      simp [Parameters.Climbs]
  | status | telemetry | deviceCommands =>
      refine iff_of_false (foldl_word_ne [_, _] hbase ⟨hpaced.1, trivial⟩
        (hword _ (by simp))) ?_
      simp [Parameters.Climbs]
  | acknowledgements =>
      refine iff_of_false (foldl_word_ne [_, _, _, _] hbase
        ⟨hpaced.1, hpaced.2.1, trivial⟩ (hword _ (by simp))) ?_
      simp [Parameters.Climbs]

/-- The paths of a tenant that the router takes for the path of the tenants. -/
theorem clean_tenants_iff {r : Request} {p : Parameters} (h : managementRequest go r = .ok p)
    (htenant : p.resource.ofTenant) :
    cleanSegments r.path = [ascii "api", ascii "v1", ascii "tenants"] ↔
      p.tenantID = ascii "." ∧ p.Climbs := by
  have hvalid := (isValidTopicPart_iff.mp (isValidTenantID_iff.mp
    ((managementRequest_accepted h).reads.tenant htenant)).1).2.2.2.2.1
  have htenants : PlainSegment (ascii "tenants") := by decide
  have hreverse : cleanSegments r.path = [ascii "api", ascii "v1", ascii "tenants"] ↔
      p.below.foldl (pushSegment true)
          (pushSegment true [ascii "tenants", ascii "v1", ascii "api"] p.tenantID) =
        [ascii "tenants", ascii "v1", ascii "api"] := by
    rw [cleanSegments_path h, segments_eq_below htenant, List.foldl_cons, List.foldl_cons,
      pushSegment_plain htenants, List.reverse_eq_iff]
    rfl
  rw [hreverse]
  by_cases hdot : p.tenantID = ascii "."
  · -- the tenant is cleaned away, and the rest stands where it stood
    have hsame : pushSegment true [ascii "tenants", ascii "v1", ascii "api"] p.tenantID =
        [ascii "tenants", ascii "v1", ascii "api"] := by rw [pushSegment, if_pos (.inr hdot)]
    rw [hsame, foldl_below_eq_iff htenant (by decide)]
    simp [hdot]
  refine iff_of_false ?_ fun hclimbs => hdot hclimbs.1
  intro heq
  by_cases hdots : p.tenantID = ascii ".."
  · -- the tenant takes the tenants away, and no word puts them back
    have hpop : pushSegment true [ascii "tenants", ascii "v1", ascii "api"] p.tenantID =
        [ascii "v1", ascii "api"] := by rw [hdots]; rfl
    rw [hpop] at heq
    obtain ⟨above, habove⟩ := foldl_pushSegment_paced (by decide)
      (above_base [ascii "v1", ascii "api"]) (paced_below p)
    have habove' : above = [ascii "tenants"] := by
      have happend : above ++ [ascii "v1", ascii "api"] =
          [ascii "tenants"] ++ [ascii "v1", ascii "api"] := habove.eq.symm.trans heq
      exact List.append_cancel_right happend
    exact habove.first (ascii "tenants") (by rw [habove']; rfl) rfl
  · -- the tenant stays
    have hpush : pushSegment true [ascii "tenants", ascii "v1", ascii "api"] p.tenantID =
        [p.tenantID, ascii "tenants", ascii "v1", ascii "api"] :=
      pushSegment_plain ⟨hvalid, hdot, hdots⟩
    rw [hpush] at heq
    obtain ⟨above, habove⟩ := foldl_pushSegment_paced
      (List.forall_mem_cons.mpr ⟨hdots, by decide⟩)
      (above_base [p.tenantID, ascii "tenants", ascii "v1", ascii "api"]) (paced_below p)
    have hlength := congrArg List.length (habove.eq.symm.trans heq)
    rw [List.length_append] at hlength
    simp only [List.length_cons, List.length_nil] at hlength
    omega

/-! ## Handlers -/

/-- A handler goes on when both of its parts do. -/
theorem reply_bind_eq_ok {α β : Type} {first : Except HttpReply α} {next : α → Except HttpReply β}
    {result : β} :
    first >>= next = .ok result ↔ ∃ value, first = .ok value ∧ next value = .ok result := by
  cases first with
  | error reply => simp [bind, Except.bind]
  | ok value => simp [bind, Except.bind]

/-- The handler works with the tenant of the parameters that the request carries. -/
def Scoped (handler : Option Parameters → Request → Outcome) : Prop :=
  ∀ params r call, handler (some params) r = .ok call → call.tenantID = some params.tenantID

/-- All calls that may come out name the tenant. -/
def CallsFor (tenantID : Bytes) (outcome : Outcome) : Prop :=
  ∀ call, outcome = .ok call → call.tenantID = some tenantID

/-- A call that is made after something else. -/
theorem CallsFor.bind {α : Type} {tenantID : Bytes} {first : Except HttpReply α}
    {next : α → Outcome} (h : ∀ value, CallsFor tenantID (next value)) :
    CallsFor tenantID (first >>= next) := by
  intro call hcall
  obtain ⟨value, -, hnext⟩ := reply_bind_eq_ok.mp hcall
  exact h value call hnext

/-- A call that is made. -/
theorem CallsFor.pure {tenantID : Bytes} {call : CoreCall} (h : call.tenantID = some tenantID) :
    CallsFor tenantID (pure call) := by
  intro made hmade
  rw [← Except.ok.inj hmade]
  exact h

/-- A handler that starts with the parameters and calls for their tenant. -/
theorem scoped_of_callsFor {handler : Option Parameters → Request → Outcome}
    (body : Parameters → Option Parameters → Request → Outcome)
    (heq : ∀ carried r, handler carried r =
      requestParameters go carried r >>= fun params => body params carried r)
    (hbody : ∀ params carried r, CallsFor params.tenantID (body params carried r)) :
    Scoped handler := by
  intro params r call h
  rw [heq] at h
  exact hbody params (some params) r call h

/-- The path of the tenants. -/
def tenantsPath : Bytes := ascii "/api/v1/tenants"

/-- The paths below a tenant. -/
def tenantPaths : List Bytes :=
  [ascii "/api/v1/tenants/:tenantId/devices", ascii "/api/v1/tenants/:tenantId/devices/:deviceId",
    ascii "/api/v1/tenants/:tenantId/devices/:deviceId/status",
    ascii "/api/v1/tenants/:tenantId/devices/:deviceId/telemetry",
    ascii "/api/v1/tenants/:tenantId/devices/:deviceId/commands",
    ascii "/api/v1/tenants/:tenantId/commands",
    ascii "/api/v1/tenants/:tenantId/commands/:commandId",
    ascii "/api/v1/tenants/:tenantId/devices/:deviceId/commands/:commandId/acknowledgements"]

/-- What the handler of a route may call. -/
inductive Route.Kind (route : Route) : Prop where
  /-- A public path: at most the call of the probe. -/
  | free (hpath : route.path ∈ publicPaths)
      (hcall : ∀ carried r call, route.handler carried r = .ok call →
        route.path = ascii "/readyz" ∧ call = .listTenants 1 [])
  /-- The path of the tenants. -/
  | tenants (hpath : route.path = tenantsPath)
  /-- A path below a tenant: calls for the tenant of the parameters. -/
  | tenant (hpath : route.path ∈ tenantPaths) (hscoped : Scoped route.handler)

/-- The kinds of the routes. -/
theorem routes_kind {route : Route} (hroute : route ∈ routes go lib) : route.Kind := by
  simp only [routes, List.mem_cons, List.not_mem_nil, or_false] at hroute
  obtain rfl | rfl | rfl | rfl | rfl | rfl | rfl | rfl | rfl | rfl | rfl | rfl | rfl | rfl | rfl |
    rfl := hroute
  · exact .free (by simp [publicPaths]) fun _ _ _ h => (nomatch h)
  · exact .free (by simp [publicPaths]) fun _ _ _ h => ⟨rfl, (Except.ok.inj h).symm⟩
  · exact .free (by simp [publicPaths]) fun _ _ _ h => (nomatch h)
  · exact .tenants rfl
  · exact .tenants rfl
  · exact .tenant (by simp [tenantPaths])
      (scoped_of_callsFor _ (fun _ _ => rfl) fun _ _ _ => .bind fun _ => .pure rfl)
  · exact .tenant (by simp [tenantPaths])
      (scoped_of_callsFor _ (fun _ _ => rfl) fun _ _ _ => .bind fun _ => .pure rfl)
  · exact .tenant (by simp [tenantPaths])
      (scoped_of_callsFor _ (fun _ _ => rfl) fun _ _ _ => .pure rfl)
  · exact .tenant (by simp [tenantPaths])
      (scoped_of_callsFor _ (fun _ _ => rfl) fun _ _ _ => .pure rfl)
  · exact .tenant (by simp [tenantPaths]) (scoped_of_callsFor _ (fun _ _ => rfl) fun _ _ _ =>
      .bind fun _ => .bind fun _ => .pure rfl)
  · exact .tenant (by simp [tenantPaths])
      (scoped_of_callsFor _ (fun _ _ => rfl) fun _ _ _ => .bind fun _ => .pure rfl)
  · exact .tenant (by simp [tenantPaths])
      (scoped_of_callsFor _ (fun _ _ => rfl) fun _ _ _ => .bind fun _ => .pure rfl)
  · exact .tenant (by simp [tenantPaths]) (scoped_of_callsFor _ (fun _ _ => rfl) fun _ _ _ =>
      .bind fun _ => .bind fun _ => .pure rfl)
  · exact .tenant (by simp [tenantPaths]) (scoped_of_callsFor _ (fun _ _ => rfl) fun _ _ _ =>
      .bind fun _ => .bind fun _ => .pure rfl)
  · exact .tenant (by simp [tenantPaths])
      (scoped_of_callsFor _ (fun _ _ => rfl) fun _ _ _ => .pure rfl)
  · exact .tenant (by simp [tenantPaths])
      (scoped_of_callsFor _ (fun _ _ => rfl) fun _ _ _ => .bind fun _ => .pure rfl)

/-! ## Matching -/

/-- Matching segments are as many as those of the pattern. -/
theorem length_of_matchTokens {pats tokens : List Bytes} (h : matchTokens pats tokens) :
    tokens.length = pats.length := by
  induction pats generalizing tokens with
  | nil =>
      cases tokens with
      | nil => rfl
      | cons => cases h
  | cons pat pats ih =>
      cases tokens with
      | nil => cases h
      | cons token tokens =>
          rw [matchTokens, Bool.and_eq_true] at h
          rw [List.length_cons, List.length_cons, ih h.2]

/-- A pattern without parameters matches its own segments only. -/
theorem eq_of_matchTokens {pats tokens : List Bytes}
    (hstatic : ∀ pat ∈ pats, pat.head? ≠ some 0x3A) (h : matchTokens pats tokens) :
    tokens = pats := by
  induction pats generalizing tokens with
  | nil =>
      cases tokens with
      | nil => rfl
      | cons => cases h
  | cons pat pats ih =>
      cases tokens with
      | nil => cases h
      | cons token tokens =>
          rw [List.forall_mem_cons] at hstatic
          rw [matchTokens, Bool.and_eq_true, Bool.or_eq_true, beq_iff_eq, beq_iff_eq] at h
          rw [h.1.resolve_left hstatic.1, ih hstatic.2 h.2]

/-- Two patterns some segments could match both of. -/
def overlap : List Bytes → List Bytes → Bool
  | [], [] => true
  | pat :: pats, pat' :: pats' =>
      (pat.head? == some 0x3A || pat'.head? == some 0x3A || pat == pat') && overlap pats pats'
  | _, _ => false

/-- Patterns that segments match both of. -/
theorem overlap_of_matchTokens {pats pats' tokens : List Bytes} (h : matchTokens pats tokens)
    (h' : matchTokens pats' tokens) : overlap pats pats' := by
  induction pats generalizing pats' tokens with
  | nil =>
      cases tokens with
      | nil =>
          cases pats' with
          | nil => rfl
          | cons => cases h'
      | cons => cases h
  | cons pat pats ih =>
      cases tokens with
      | nil => cases h
      | cons token tokens =>
          cases pats' with
          | nil => cases h'
          | cons pat' pats' =>
              simp only [matchTokens, Bool.and_eq_true, Bool.or_eq_true, beq_iff_eq] at h h'
              simp only [overlap, Bool.and_eq_true, Bool.or_eq_true, beq_iff_eq]
              refine ⟨?_, ih h.2 h'.2⟩
              obtain hcolon | hsame := h.1
              · exact .inl (.inl hcolon)
              · obtain hcolon' | hsame' := h'.1
                · exact .inl (.inr hcolon')
                · exact .inr (hsame.trans hsame'.symm)

/-- Segments that are a pattern match it. -/
theorem matchTokens_self (tokens : List Bytes) : matchTokens tokens tokens := by
  induction tokens with
  | nil => rfl
  | cons token tokens ih => rw [matchTokens, ih, beq_self_eq_true, Bool.or_true, Bool.and_true]

/-- No two patterns of the routes match one path. -/
theorem pattern_unique {pattern pattern' : Bytes}
    (h : pattern ∈ publicPaths ++ tenantsPath :: tenantPaths)
    (h' : pattern' ∈ publicPaths ++ tenantsPath :: tenantPaths)
    (hoverlap : overlap (pathTokens pattern) (pathTokens pattern')) : pattern = pattern' := by
  have hall : ∀ pattern ∈ publicPaths ++ tenantsPath :: tenantPaths,
      ∀ pattern' ∈ publicPaths ++ tenantsPath :: tenantPaths,
        overlap (pathTokens pattern) (pathTokens pattern') = true → pattern = pattern' := by
    decide +kernel
  exact hall pattern h pattern' h' hoverlap

/-- The patterns of the routes. -/
theorem path_mem_patterns {route : Route} (hroute : route ∈ routes go lib) :
    route.path ∈ publicPaths ++ tenantsPath :: tenantPaths := by
  cases routes_kind hroute with
  | free hpath => exact List.mem_append_left _ hpath
  | tenants hpath => exact List.mem_append_right _ (List.mem_cons.mpr (.inl hpath))
  | tenant hpath => exact List.mem_append_right _ (List.mem_cons_of_mem _ hpath)

/-- An accepted path keeps the segments that every path of the API starts with. -/
theorem cleanSegments_api {r : Request} {p : Parameters} (h : managementRequest go r = .ok p) :
    ∃ rest, cleanSegments r.path = ascii "api" :: ascii "v1" :: rest := by
  have htenants : PlainSegment (ascii "tenants") := by decide
  have hpaced : Paced (fun _ => True) p.segments := by
    by_cases htenant : p.resource.ofTenant
    · rw [segments_eq_below htenant]
      exact ⟨⟨htenants, trivial⟩, (paced_below p).imp fun _ _ => trivial⟩
    · have hresource : p.resource = .tenants := by simpa [Resource.ofTenant] using htenant
      have hsegments : p.segments = [ascii "tenants"] := by rw [Parameters.segments, hresource]
      rw [hsegments]
      exact ⟨htenants, trivial⟩
  obtain ⟨above, habove⟩ := foldl_pushSegment_paced (by decide)
    (above_base [ascii "v1", ascii "api"]) hpaced
  exact ⟨above.reverse, by rw [cleanSegments_path h, habove.eq, List.reverse_append]; rfl⟩

/-- Which paths an accepted path matches once it is cleaned. -/
theorem matchPath_cleanPath {r : Request} {p : Parameters} (h : managementRequest go r = .ok p)
    (pattern : Bytes) : matchPath pattern (cleanPath r.path) =
      matchTokens (pathTokens pattern) (cleanSegments r.path) := by
  obtain ⟨rest, hrest⟩ := cleanSegments_api h
  have htokens := pathTokens_cleanPath (head_path h) (by rw [hrest]; exact List.cons_ne_nil _ _)
  have hrooted : ((cleanPath r.path).head? == some 0x2F) = true := by
    rw [cleanPath, if_pos (head_path h)]
    rfl
  rw [matchPath, htokens, hrooted, Bool.true_and]

/-! ## Authorization -/

/-- A path that names a tenant is below one. -/
theorem ofTenant_of_tenantID {r : Request} {p : Parameters} (h : managementRequest go r = .ok p)
    (hne : p.tenantID ≠ []) : p.resource.ofTenant := by
  have hreads := (managementRequest_accepted h).reads
  by_contra htenant
  have hresource : p.resource = .tenants := by simpa [Resource.ofTenant] using htenant
  have hparts : (r.path.drop apiPrefix.length).splitOn 0x2F = [ascii "tenants"] := by
    rw [← hreads.segments, Parameters.segments, hresource]
  unfold managementRequest at h
  rw [bind_eq_ok] at h
  obtain ⟨_, -, h⟩ := h
  rw [hparts, bind_eq_ok] at h
  obtain ⟨path, hpath, h⟩ := h
  rw [bind_eq_ok] at h
  obtain ⟨_, -, h⟩ := h
  split at h
  · cases h
  rw [bind_eq_ok] at h
  obtain ⟨_, -, h⟩ := h
  cases h
  cases hpath
  exact hne rfl

/-- How a call gets past the check of the token. -/
theorem bearerTokenMiddleware_ok {tokens : Tokens} {next : Option Parameters → Request → Outcome}
    {r : Request} {call : CoreCall} (h : bearerTokenMiddleware go tokens next r = .ok call) :
    (r.path ∈ publicPaths ∧ next none r = .ok call) ∨
      ∃ provided params, bearerToken r.authorization = some provided ∧ provided ≠ [] ∧
        managementRequest go r = .ok params ∧ next (some params) r = .ok call ∧
        (tokens.global provided = false →
          params.tenantID ≠ [] ∧ tokens.boundTenant provided = some params.tenantID) := by
  unfold bearerTokenMiddleware at h
  split_ifs at h with hpublic
  · exact .inl ⟨List.contains_iff_mem.mp hpublic, h⟩
  right
  split at h
  · cases h
  rename_i provided hprovided
  split_ifs at h with hrefused
  · cases h
  rw [not_or] at hrefused
  split at h
  · split_ifs at h <;> cases h
  rename_i params hparams
  split_ifs at h with hforeign
  · cases h
  refine ⟨provided, params, hprovided, hrefused.1, hparams, h, fun hglobal => ?_⟩
  rw [not_and, not_or, not_not] at hforeign
  exact hforeign (by rw [hglobal]; rfl)

/-- A public path is clean, so that the router finds it under its own name alone. -/
theorem public_matched {route : Route} (hroute : route ∈ routes go lib) {path : Bytes}
    (hpath : path ∈ publicPaths) (h : matchPath route.path (cleanPath path)) :
    route.path = path := by
  have hclean : ∀ path ∈ publicPaths, cleanPath path = path := by decide
  rw [hclean path hpath, matchPath, Bool.and_eq_true] at h
  exact pattern_unique (path_mem_patterns hroute) (List.mem_append_left _ hpath)
    (overlap_of_matchTokens h.2 (matchTokens_self _))

/-- A path of the API is cleaned to no public path. -/
theorem public_not_api {r : Request} {p : Parameters} (h : managementRequest go r = .ok p)
    {pattern : Bytes} (hpattern : pattern ∈ publicPaths) :
    matchPath pattern (cleanPath r.path) = false := by
  rw [matchPath_cleanPath h, ← Bool.not_eq_true]
  intro hmatch
  obtain ⟨rest, hrest⟩ := cleanSegments_api h
  have hstatic : ∀ pattern ∈ publicPaths, (∀ pat ∈ pathTokens pattern, pat.head? ≠ some 0x3A) ∧
      (pathTokens pattern).head? ≠ some (ascii "api") := by decide
  have hsame := eq_of_matchTokens (hstatic pattern hpattern).1 hmatch
  exact (hstatic pattern hpattern).2 (by rw [← hsame, hrest]; rfl)

/-- The paths that a token for the tenant `.` leads to the tenants with. -/
def climbingPaths : List Bytes :=
  [ascii "/api/v1/tenants/./devices/..", ascii "/api/v1/tenants/./commands/.."]

/-- The climbing paths of the tenant `.`. -/
theorem mem_climbingPaths {p : Parameters} (htenant : p.tenantID = ascii ".") (hclimbs : p.Climbs) :
    p.path ∈ climbingPaths := by
  obtain ⟨resource, tenantID, deviceID, commandID, query⟩ := p
  obtain rfl : tenantID = ascii "." := htenant
  obtain ⟨hresource, hid⟩ | ⟨hresource, hid⟩ := hclimbs
  · obtain rfl : resource = .device := hresource
    obtain rfl : deviceID = ascii ".." := hid
    exact List.mem_cons.mpr (.inl rfl)
  · obtain rfl : resource = .command := hresource
    obtain rfl : commandID = ascii ".." := hid
    exact List.mem_cons_of_mem _ (List.mem_cons.mpr (.inl rfl))

/-- Every call is the probe of `/readyz`, or made for a request with the global token, or for the
tenant that the token of the request is bound to. A token for the tenant `.` also leads to the
tenants, on two paths. -/
theorem calls_authorized (hrouter : router.Dispatches) {tokens : Tokens} {r : Request}
    {call : CoreCall} (h : serve go lib router tokens r = .ok call) :
    (r.path = ascii "/readyz" ∧ call = .listTenants 1 []) ∨
      ∃ provided, bearerToken r.authorization = some provided ∧ provided ≠ [] ∧
        (tokens.global provided = false →
          ∃ tenantID, tokens.boundTenant provided = some tenantID ∧
            (call.tenantID = some tenantID ∨ tenantID = ascii "." ∧ r.path ∈ climbingPaths)) := by
  unfold serve at h
  split at h
  · rename_i route hsearch
    obtain ⟨hroute, -, hmatch⟩ := hrouter.found hsearch
    have hkind := routes_kind hroute
    obtain ⟨hpublic, hcall⟩ | ⟨provided, params, hprovided, hne, hparams, hcall, hbound⟩ :=
      bearerTokenMiddleware_ok h
    · -- the router has found the public path itself, and no path of the API is public
      have hown := public_matched hroute hpublic hmatch
      have hdisjoint : ∀ path ∈ publicPaths, path ∉ tenantsPath :: tenantPaths := by
        decide +kernel
      cases hkind with
      | free hpath hprobe =>
          obtain ⟨hready, hprobed⟩ := hprobe _ _ _ hcall
          exact .inl ⟨hown.symm.trans hready, hprobed⟩
      | tenants hpath =>
          exact absurd (List.mem_cons.mpr (.inl (hown.symm.trans hpath))) (hdisjoint _ hpublic)
      | tenant hpath =>
          rw [hown] at hpath
          exact absurd (List.mem_cons_of_mem _ hpath) (hdisjoint _ hpublic)
    · refine .inr ⟨provided, hprovided, hne, fun hglobal => ?_⟩
      obtain ⟨hnonempty, hbound⟩ := hbound hglobal
      refine ⟨params.tenantID, hbound, ?_⟩
      cases hkind with
      | free hpath =>
          rw [public_not_api hparams hpath] at hmatch
          cases hmatch
      | tenants hpath =>
          -- the handler does not ask for the tenant, so the path must have climbed
          have htenant := ofTenant_of_tenantID hparams hnonempty
          rw [matchPath_cleanPath hparams, hpath] at hmatch
          have hclean := eq_of_matchTokens (by decide) hmatch
          have hclimbs := (clean_tenants_iff hparams htenant).mp hclean
          rw [← managementRequest_path hparams]
          exact .inr ⟨hclimbs.1, mem_climbingPaths hclimbs.1 hclimbs.2⟩
      | tenant hpath hscoped => exact .inl (hscoped _ _ _ hcall)
  · cases h

/-- Whatever the gateway is set up with, a request with a token bound to the tenant calls for that
tenant alone, or it is the probe of `/readyz`, which asks for no token. -/
def Isolated (router : Router) (tenantID : Bytes) : Prop :=
  ∀ (go : GoRuntime) (lib : Libraries)
    (decode : Bytes → Except GoError (Table (Prod.fst : Bytes × Bytes → Bytes))) (raw : Bytes)
    (tokens : Tokens) (r : Request) (provided : Bytes) (call : CoreCall),
    parseTenantBoundTokens decode raw = .ok tokens.tenantTokens →
    bearerToken r.authorization = some provided → tokens.global provided = false →
    tokens.boundTenant provided = some tenantID → serve go lib router tokens r = .ok call →
    call.tenantID = some tenantID ∨ r.path = ascii "/readyz" ∧ call = .listTenants 1 []

/-- A token bound to the tenant `.`. -/
def dotTokens : Tokens := ⟨[], ⟨[(ascii "secret", ascii ".")], by decide⟩⟩

/-- A request for the device `..` of the tenant `.`. -/
def climbingRequest : Request :=
  ⟨methodGet, ascii "/api/v1/tenants/./devices/..", [], ascii "Bearer secret", [], []⟩

/-- Routes are told apart by their methods and paths. -/
theorem route_unique {route route' : Route} (h : route ∈ routes go lib)
    (h' : route' ∈ routes go lib) (hmethod : route.method = route'.method)
    (hpath : route.path = route'.path) :
    route = route' := by
  have hnodup : ((routes go lib).map fun route => (route.method, route.path)).Nodup := by
    show ((routes .plain .plain).map fun route => (route.method, route.path)).Nodup
    decide +kernel
  exact List.inj_on_of_nodup_map hnodup h h' (Prod.ext hmethod hpath)

/-- A request goes to the handler of the route that is found for it. -/
theorem serve_found {tokens : Tokens} {r : Request} {route : Route}
    (h : router (routes go lib) r.method r.path = .ok route) :
    serve go lib router tokens r = bearerTokenMiddleware go tokens route.handler r := by
  rw [serve, h]

/-- It lists the tenants. -/
theorem serve_climbingRequest (hrouter : router.Dispatches) :
    serve .plain .plain router dotTokens climbingRequest =
      .ok (.listTenants defaultPageSize []) := by
  -- `..` takes the devices away and `.` is no segment, so that the path is that of the tenants
  have hclean : matchPath tenantsPath (cleanPath climbingRequest.path) := by decide +kernel
  have hmem : ⟨methodGet, tenantsPath, listTenantsHandler .plain .plain⟩ ∈
      routes .plain .plain := by
    simp [routes, tenantsPath]
  obtain ⟨found, hfound⟩ := hrouter.finds hmem hclean
  obtain ⟨hroute, hmethod, hmatch⟩ := hrouter.found hfound
  have hpath : found.path = tenantsPath :=
    pattern_unique (path_mem_patterns hroute) (path_mem_patterns hmem)
      (overlap_of_matchTokens (Bool.and_eq_true_iff.mp hmatch).2 (Bool.and_eq_true_iff.mp hclean).2)
  obtain rfl := route_unique hroute hmem hmethod hpath
  have hget : climbingRequest.method = methodGet := rfl
  rw [serve_found (hget ▸ hfound)]
  decide +kernel

/-- The token is accepted as a token of the tenant `.`. -/
theorem parse_dotTokens :
    parseTenantBoundTokens (fun _ => .ok dotTokens.tenantTokens) (ascii "x") =
      .ok dotTokens.tenantTokens := by
  have htext : trimSpace (ascii "x") ≠ [] := by decide +kernel
  have hentries : (dotTokens.tenantTokens.rows.any fun entry =>
      trimSpace entry.1 = [] || !isValidTenantID entry.2) = false := by decide +kernel
  rw [parseTenantBoundTokens, if_neg htext, bind_eq_ok]
  refine ⟨_, rfl, ?_⟩
  rw [bind_eq_ok]
  exact ⟨(), returnIf_eq_ok.mpr (by rw [hentries]; exact Bool.false_ne_true), rfl⟩

/-- The token of a request is the global one or one of those bound to a tenant. -/
def Tokens.valid (tokens : Tokens) (r : Request) : Bool :=
  match bearerToken r.authorization with
  | none => false
  | some provided =>
      provided ≠ [] && (tokens.global provided || (tokens.boundTenant provided).isSome)

/-- Without a valid token there is no call but the probe of `/readyz`, and tokens bound to a tenant
are confined to it, except for the tenant `.`. -/
theorem rest_isolation (hrouter : router.Dispatches) (tenantID : Bytes) :
    (∀ go lib tokens r call, Tokens.valid tokens r = false →
      serve go lib router tokens r = .ok call →
        r.path = ascii "/readyz" ∧ call = .listTenants 1 []) ∧
    (Isolated router tenantID ↔ tenantID ≠ ascii ".") := by
  refine ⟨?_, ?_, ?_⟩
  · intro go lib tokens r call hinvalid hserve
    obtain hprobe | ⟨provided, hprovided, hne, hcalls⟩ := calls_authorized hrouter hserve
    · exact hprobe
    · simp only [Tokens.valid, hprovided, Bool.and_eq_false_iff, decide_eq_false_iff_not, not_not,
        Bool.or_eq_false_iff] at hinvalid
      obtain ⟨hglobal, hbound⟩ := hinvalid.resolve_left hne
      obtain ⟨tenant, htenant, -⟩ := hcalls hglobal
      rw [htenant] at hbound
      cases hbound
  · rintro hisolated rfl
    have hcall := hisolated .plain .plain _ (ascii "x") dotTokens climbingRequest (ascii "secret") _
      parse_dotTokens (by decide) (by decide) (by decide) (serve_climbingRequest hrouter)
    obtain hcall | ⟨hready, -⟩ := hcall
    · cases hcall
    · exact absurd hready (by decide)
  · intro hdot go lib decode raw tokens r provided call _ hprovided hglobal hbound hserve
    obtain hprobe | ⟨provided', hprovided', -, hcalls⟩ := calls_authorized hrouter hserve
    · exact .inr hprobe
    · obtain rfl : provided = provided' := Option.some.inj (hprovided.symm.trans hprovided')
      obtain ⟨tenantID', hbound', hcall⟩ := hcalls hglobal
      obtain rfl : tenantID = tenantID' := Option.some.inj (hbound.symm.trans hbound')
      exact .inl (hcall.resolve_right fun hclimbs => hdot hclimbs.1)

/-- With a router that takes the first route that matches, the tenant `acme` is isolated and the
tenant `.` is not. -/
theorem rest_isolation_first :
    Isolated Router.first (ascii "acme") ∧ ¬ Isolated Router.first (ascii ".") := by
  refine ⟨(rest_isolation Router.first_dispatches _).2.mpr (by decide), fun hisolated => ?_⟩
  exact (rest_isolation Router.first_dispatches _).2.mp hisolated rfl

/-- A token that is bound to the tenant `.`, and is not the global one, lists all tenants. -/
theorem dot_token_lists_tenants :
    parseTenantBoundTokens (fun _ => .ok dotTokens.tenantTokens) (ascii "x") =
      .ok dotTokens.tenantTokens ∧
    bearerToken climbingRequest.authorization = some (ascii "secret") ∧
    dotTokens.global (ascii "secret") = false ∧
    dotTokens.boundTenant (ascii "secret") = some (ascii ".") ∧
    serve .plain .plain Router.first dotTokens climbingRequest =
      .ok (.listTenants defaultPageSize []) :=
  ⟨parse_dotTokens, by decide, by decide, by decide, serve_climbingRequest Router.first_dispatches⟩

/-! ## Two readings of one path -/

/-- The pattern of the paths of a resource. -/
def Resource.pattern : Resource → Bytes
  | .tenants => ascii "/api/v1/tenants"
  | .devices => ascii "/api/v1/tenants/:tenantId/devices"
  | .device => ascii "/api/v1/tenants/:tenantId/devices/:deviceId"
  | .status => ascii "/api/v1/tenants/:tenantId/devices/:deviceId/status"
  | .telemetry => ascii "/api/v1/tenants/:tenantId/devices/:deviceId/telemetry"
  | .deviceCommands => ascii "/api/v1/tenants/:tenantId/devices/:deviceId/commands"
  | .acknowledgements =>
      ascii "/api/v1/tenants/:tenantId/devices/:deviceId/commands/:commandId/acknowledgements"
  | .commands => ascii "/api/v1/tenants/:tenantId/commands"
  | .command => ascii "/api/v1/tenants/:tenantId/commands/:commandId"

/-- The segments of a resource match its pattern. -/
theorem matchTokens_pattern (p : Parameters) :
    matchTokens (pathTokens p.resource.pattern) (ascii "api" :: ascii "v1" :: p.segments) := by
  obtain ⟨resource, tenantID, deviceID, commandID, query⟩ := p
  cases resource <;> rfl

/-- The patterns of the resources are among those of the routes. -/
theorem mem_patterns (resource : Resource) :
    resource.pattern ∈ publicPaths ++ tenantsPath :: tenantPaths := by
  refine List.mem_append_right _ ?_
  cases resource <;> simp [Resource.pattern, tenantsPath, tenantPaths]

/-- A pattern has as many segments as the paths of its resource. -/
theorem length_pattern (p : Parameters) :
    (pathTokens p.resource.pattern).length = p.segments.length + 2 := by
  have hlength := length_of_matchTokens (matchTokens_pattern p)
  rw [← hlength, List.length_cons, List.length_cons]

/-- What `path.Clean` keeps of an accepted path, counted from its root. -/
theorem length_cleanSegments {r : Request} {p : Parameters} (h : managementRequest go r = .ok p) :
    (cleanSegments r.path).length = p.segments.length + 2 ↔
      ∀ segment ∈ p.segments, PlainSegment segment := by
  have hwords : PlainSegment (ascii "api") ∧ PlainSegment (ascii "v1") := by decide
  have hfold : (p.segments.foldl (pushSegment true) [ascii "v1", ascii "api"]) =
      (ascii "api" :: ascii "v1" :: p.segments).foldl (pushSegment true) [] := by
    rw [List.foldl_cons, List.foldl_cons, pushSegment_plain hwords.1, pushSegment_plain hwords.2]
  have hiff := @length_cleaned_eq_iff (ascii "api" :: ascii "v1" :: p.segments)
  rw [List.forall_mem_cons, List.forall_mem_cons, List.length_cons, List.length_cons] at hiff
  rw [cleanSegments_path h, List.length_reverse, hfold, hiff]
  simp [hwords]

/-- The router finds the route of the resource that a request was read as exactly if no segment of
its path is cleaned away: no id is `.` or `..`, and the command has an id. -/
theorem routed_as_read_iff (hrouter : router.Dispatches) {r : Request} {p : Parameters}
    (h : managementRequest go r = .ok p)
    (hserved : ∃ route ∈ routes go lib, route.method = r.method ∧ route.path = p.resource.pattern) :
    (∃ route, router (routes go lib) r.method r.path = .ok route ∧
      route.path = p.resource.pattern) ↔ ∀ segment ∈ p.segments, PlainSegment segment := by
  constructor
  · rintro ⟨route, hsearch, hpath⟩
    obtain ⟨-, -, hmatch⟩ := hrouter.found hsearch
    rw [matchPath_cleanPath h, hpath] at hmatch
    rw [← length_cleanSegments h, length_of_matchTokens hmatch, length_pattern]
  · intro hplain
    have hclean : cleanSegments r.path = ascii "api" :: ascii "v1" :: p.segments := by
      rw [cleanSegments_path h, foldl_pushSegment_plain hplain, List.reverse_append,
        List.reverse_reverse]
      rfl
    have hpattern := matchTokens_pattern p
    obtain ⟨route, hroute, hmethod, hpath⟩ := hserved
    -- the route of the resource matches, so some route is found; and it has the same pattern
    have hmatches : matchPath route.path (cleanPath r.path) := by
      rw [matchPath_cleanPath h, hpath, hclean]
      exact hpattern
    obtain ⟨found, hsearch⟩ := hrouter.finds hroute hmatches
    rw [hmethod] at hsearch
    obtain ⟨hmem, -, hmatch⟩ := hrouter.found hsearch
    rw [matchPath_cleanPath h, hclean] at hmatch
    exact ⟨found, hsearch, pattern_unique (path_mem_patterns hmem) (mem_patterns p.resource)
      (overlap_of_matchTokens hmatch hpattern)⟩

/-- The device `..` of a tenant is not found under its path, other than the device `d`. -/
theorem routed_as_read_iff_dots :
    (∃ route, Router.first (routes .plain .plain) methodGet
        (ascii "/api/v1/tenants/t/devices/d") = .ok route ∧
      route.path = Resource.device.pattern) ∧
    ¬ ∃ route, Router.first (routes .plain .plain) methodGet
        (ascii "/api/v1/tenants/t/devices/..") = .ok route ∧
      route.path = Resource.device.pattern := by
  have hserved : ∃ route ∈ routes .plain .plain, route.method = methodGet ∧
      route.path = Resource.device.pattern := by
    refine ⟨⟨methodGet, Resource.device.pattern, getDeviceHandler .plain⟩, ?_, rfl, rfl⟩
    simp [routes, Resource.pattern]
  have hread : ∀ id ∈ [ascii "d", ascii ".."], managementRequest .plain
      ⟨methodGet, ascii "/api/v1/tenants/t/devices/" ++ id, [], [], [], []⟩ =
        .ok ⟨.device, ascii "t", id, [], []⟩ := by decide +kernel
  constructor
  · exact (routed_as_read_iff Router.first_dispatches (hread (ascii "d") (by simp)) hserved).mpr
      (by decide)
  · intro hrouted
    have hplain :=
      (routed_as_read_iff Router.first_dispatches (hread (ascii "..") (by simp)) hserved).mp hrouted
    exact absurd hplain (by decide)

end Iot.Http
