import A2aGo.Protocol.Types

/-!
**`agentcard.Resolver.Resolve` and its options.**

`Resolve(ctx, opts...)` starts from a `resolveRequest` with the default path and a nil `headers`
map, applies each option to it in order, and returns `fmt.Errorf("not implemented")`. `WithPath`
sets the path; `WithRequestHeaders(headers)` assigns each header into `r.headers`. Nothing ever
makes `r.headers`, and an assignment into a nil map panics:

* `foldlM_apply_nil`: from a request with nil `headers`, the options keep `headers` nil and the
  path of the last `WithPath`, or panic at the first header;
* `resolve_panics_iff_headers`: **`Resolve` panics exactly when some `WithRequestHeaders` option
  carries a header**; otherwise it returns "not implemented" from a request with the path of the
  last `WithPath` (or the default) and no headers. The third call of `TestResolver_Resolve`,
  with `{"X-Test": "true"}`, panics.
-/

namespace A2aGo.Client.AgentCard

open A2aGo.Protocol

/-- `defaultAgentCardPath`. -/
def defaultAgentCardPath : String := "/.well-known/agent-card.json"

/-- `resolveRequest`; `headers` is `none` while the map is nil. -/
structure ResolveRequest where
  path : String
  headers : Option (GoMap String String)

/-- `ResolveOption`: the closures `WithPath` and `WithRequestHeaders` return. `resolveRequest` is
unexported, so these are the options a caller of the package can build. A nil `headers` map
ranges like an empty one. -/
inductive ResolveOption
  | withPath (path : String)
  | withRequestHeaders (headers : GoMap String String)

/-- `r.headers[k] = v`; `none` is the panic of an assignment into a nil map. -/
def ResolveRequest.setHeader (r : ResolveRequest) (k v : String) : Option ResolveRequest :=
  r.headers.map fun headers => { r with headers := some (headers.insert k v) }

/-- The body of an option's closure: `r.path = path`, or `for k, v := range headers
{ r.headers[k] = v }`; `none` if it panics. -/
def ResolveOption.apply : ResolveOption → ResolveRequest → Option ResolveRequest
  | .withPath path, r => some { r with path := path }
  | .withRequestHeaders headers, r =>
    headers.entries.foldlM (fun r entry => r.setHeader entry.1 entry.2) r

/-- `req := &resolveRequest{path: defaultAgentCardPath}`, then `for _, o := range opts { o(req) }`;
`none` if an option panics. -/
def buildRequest (opts : List ResolveOption) : Option ResolveRequest :=
  opts.foldlM (fun r o => o.apply r) { path := defaultAgentCardPath, headers := none }

/-- `Resolver.Resolve(ctx, opts...)`: the error text it returns, `none` if it panics. The
`AgentCard{}` it returns beside the error carries nothing. -/
def resolve (opts : List ResolveOption) : Option String :=
  (buildRequest opts).map fun _ => "not implemented"

/-- The path of the last `WithPath` in `opts`, or `path` when there is none. -/
def lastPath (path : String) : List ResolveOption → String
  | [] => path
  | .withPath path' :: rest => lastPath path' rest
  | .withRequestHeaders _ :: rest => lastPath path rest

/-- Some option carries a header. -/
def HasHeader (opts : List ResolveOption) : Prop :=
  ∃ headers, ResolveOption.withRequestHeaders headers ∈ opts ∧ headers.entries ≠ []

/-! ### A request whose `headers` is nil -/

section NilHeaders

variable {r : ResolveRequest}

/-- Ranging headers into a nil map panics at the first one, and does nothing when there is
none. -/
theorem foldlM_setHeader_nil (nil : r.headers = none) :
    ∀ entries : List (Sigma fun _ : String => String),
      entries.foldlM (fun r entry => r.setHeader entry.1 entry.2) r =
        if entries = [] then some r else none
  | [] => rfl
  | entry :: rest => by simp [ResolveRequest.setHeader, nil]

/-- On a request with nil `headers`, `WithPath` sets the path and `WithRequestHeaders` panics
exactly when it carries a header. -/
theorem apply_nil (nil : r.headers = none) (o : ResolveOption) :
    o.apply r = match o with
      | .withPath path => some { r with path := path }
      | .withRequestHeaders headers => if headers.entries = [] then some r else none := by
  cases o with
  | withPath path => rfl
  | withRequestHeaders headers => exact foldlM_setHeader_nil nil headers.entries

theorem hasHeader_cons (o : ResolveOption) (rest : List ResolveOption) :
    HasHeader (o :: rest) ↔
      (∃ headers, o = .withRequestHeaders headers ∧ headers.entries ≠ []) ∨
        HasHeader rest := by
  constructor
  · rintro ⟨headers, mem, carries⟩
    rcases List.mem_cons.mp mem with same | later
    · exact .inl ⟨headers, same.symm, carries⟩
    · exact .inr ⟨headers, later, carries⟩
  · rintro (⟨headers, rfl, carries⟩ | ⟨headers, later, carries⟩)
    · exact ⟨headers, List.mem_cons_self _ _, carries⟩
    · exact ⟨headers, List.mem_cons_of_mem _ later, carries⟩

/-- From a request with nil `headers`, the options panic exactly when one carries a header, and
otherwise leave `headers` nil and the path of the last `WithPath`. -/
theorem foldlM_apply_nil (opts : List ResolveOption) (nil : r.headers = none) :
    (opts.foldlM (fun r o => o.apply r) r = none ↔ HasHeader opts) ∧
      ∀ r', opts.foldlM (fun r o => o.apply r) r = some r' →
        r'.headers = none ∧ r'.path = lastPath r.path opts := by
  induction opts generalizing r with
  | nil =>
    refine ⟨iff_of_false nofun fun ⟨_, mem, _⟩ => absurd mem (List.not_mem_nil _), ?_⟩
    rintro r' ⟨⟩
    exact ⟨nil, rfl⟩
  | cons o rest ih =>
    rw [hasHeader_cons, List.foldlM_cons, apply_nil nil]
    cases o with
    | withPath path =>
      obtain ⟨panics, built⟩ := ih (r := { r with path := path }) nil
      simpa only [Option.bind_eq_bind, Option.some_bind, reduceCtorEq, false_and, exists_false,
        false_or] using And.intro panics built
    | withRequestHeaders headers =>
      obtain ⟨panics, built⟩ := ih nil
      by_cases empty : headers.entries = []
      · simpa only [empty, if_true, Option.bind_eq_bind, Option.some_bind,
          ResolveOption.withRequestHeaders.injEq, exists_eq_left', ne_eq, not_true_eq_false,
          false_or] using And.intro panics built
      · simp only [empty, if_false, Option.bind_eq_bind, Option.none_bind]
        exact ⟨iff_of_true trivial (.inl ⟨headers, rfl, empty⟩), nofun⟩

end NilHeaders

/-- **`Resolve` panics exactly when some `WithRequestHeaders` option carries a header**: the
header is assigned into the nil `headers` map of the request. Otherwise it returns
"not implemented", from a request with the path of the last `WithPath`, or the default, and with
no headers. -/
theorem resolve_panics_iff_headers (opts : List ResolveOption) :
    (resolve opts = none ↔ HasHeader opts) ∧
      (¬ HasHeader opts → resolve opts = some "not implemented" ∧
        buildRequest opts = some ⟨lastPath defaultAgentCardPath opts, none⟩) := by
  obtain ⟨panics, built⟩ := foldlM_apply_nil opts (r := ⟨defaultAgentCardPath, none⟩) rfl
  refine ⟨by rw [resolve, Option.map_eq_none']; exact panics, fun clean => ?_⟩
  cases result : buildRequest opts with
  | none => exact absurd (panics.mp result) clean
  | some r =>
    obtain ⟨nil, path⟩ := built r result
    exact ⟨by rw [resolve, result]; rfl, by rw [← nil, ← path]⟩

/-- `TestResolver_Resolve`: no option and `WithPath` give "not implemented"; the third call, with
`WithRequestHeaders({"X-Test": "true"})`, panics. -/
example : resolve [] = some "not implemented" ∧
    resolve [.withPath "/new-path"] = some "not implemented" ∧
    resolve [.withRequestHeaders ([⟨"X-Test", "true"⟩].toAList)] = none := ⟨rfl, rfl, rfl⟩

end A2aGo.Client.AgentCard
