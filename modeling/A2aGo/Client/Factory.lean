import A2aGo.Protocol.Types

/-!
**The client `Factory`: building it once from all options, or extending it.**

`NewFactory(options...)` starts from an empty factory, applies `defaultOptions` (the gRPC
transport) unless some option is `WithDefaultsDisabled()`, and then applies the options in
order. `WithAdditionalOptions(f, opts...)` rebuilds `f` from options that copy its config, its
interceptors and each of its transports, behind `WithDefaultsDisabled()`, and then applies
`opts`. `CreateFromCard` and `CreateFromURL` extend the factory this way with per-call options.

An option is the value one of the five `With...` functions returns, so `FactoryOption` has one
constructor per kind, and `FactoryOption.apply` is the closure's body. The config, the
interceptors and the transport factories are opaque to this code: they are type parameters, and
the closure `WithGRPCTransport` builds from its dial options is a function `grpc` of them.

* `Factory.Same`: the same config, the same interceptors in order, the same transport for every
  protocol; `FactoryOption.apply_same`: every option keeps it;
* `withAdditionalOptions_same`: `WithAdditionalOptions(f, opts...)` is `f` with `opts` applied;
* `withAdditionalOptions_newFactory`: extending a factory is building it once from the
  concatenated options, when the second list disables the defaults only if the first does;
* `withAdditionalOptions_keeps_grpc`: otherwise the two differ only in the extended factory's
  default gRPC transport.
-/

namespace A2aGo.Client

open A2aGo.Protocol

/-- `a2a.TransportProtocol`. -/
abbrev TransportProtocol := String

/-- `a2a.TransportProtocolGRPC`. -/
def transportProtocolGRPC : TransportProtocol := "GRPC"

/-- `Factory`: the config, the call interceptors, and a transport factory per protocol. -/
structure Factory (Config Interceptor Transport : Type) where
  config : Config
  interceptors : List Interceptor
  transports : GoMap TransportProtocol Transport

/-- A `FactoryOption`, by the function that made it. -/
inductive FactoryOption (Config Interceptor Transport : Type)
  /-- `WithConfig(c)`. -/
  | withConfig (config : Config)
  /-- `WithTransport(protocol, factory)`. -/
  | withTransport (protocol : TransportProtocol) (factory : Transport)
  /-- `WithInterceptors(interceptors...)`. -/
  | withInterceptors (interceptors : List Interceptor)
  /-- `WithDefaultsDisabled()`: the marker `defaultsDisabledOpt{}`. -/
  | withDefaultsDisabled

section Factory

variable {Config Interceptor Transport DialOption : Type}

/-- `WithGRPCTransport(opts...)`: `WithTransport` of the gRPC protocol, with the closure built
from `opts`. -/
def withGRPCTransport (grpc : List DialOption → Transport) (opts : List DialOption) :
    FactoryOption Config Interceptor Transport :=
  .withTransport transportProtocolGRPC (grpc opts)

/-- `apply(f)` of each option. -/
def FactoryOption.apply : FactoryOption Config Interceptor Transport →
    Factory Config Interceptor Transport → Factory Config Interceptor Transport
  | .withConfig config, f => { f with config := config }
  | .withTransport protocol factory, f =>
    { f with transports := f.transports.insert protocol factory }
  | .withInterceptors interceptors, f => { f with interceptors := f.interceptors ++ interceptors }
  | .withDefaultsDisabled, f => f

/-- The type assertion `o.(defaultsDisabledOpt)`. -/
def FactoryOption.isDefaultsDisabled : FactoryOption Config Interceptor Transport → Bool
  | .withDefaultsDisabled => true
  | _ => false

/-- `for _, o := range options { o.apply(f) }`. -/
def applyAll (options : List (FactoryOption Config Interceptor Transport))
    (f : Factory Config Interceptor Transport) : Factory Config Interceptor Transport :=
  options.foldl (fun f o => o.apply f) f

/-- `defaultOptions`: the gRPC transport with no dial options. -/
def defaultOptions (grpc : List DialOption → Transport) :
    List (FactoryOption Config Interceptor Transport) :=
  [withGRPCTransport grpc []]

/-- `NewFactory(options...)`. The config starts as Go's zero value, `default`. -/
def newFactory [Inhabited Config] (grpc : List DialOption → Transport)
    (options : List (FactoryOption Config Interceptor Transport)) :
    Factory Config Interceptor Transport :=
  let empty : Factory Config Interceptor Transport := ⟨default, [], ∅⟩
  let applyDefaults := !options.any FactoryOption.isDefaultsDisabled
  applyAll options (if applyDefaults then applyAll (defaultOptions grpc) empty else empty)

/-- The options that copy a factory's transports: `for k, v := range f.transports`. -/
def transportOptions (transports : GoMap TransportProtocol Transport) :
    List (FactoryOption Config Interceptor Transport) :=
  transports.entries.map fun entry => .withTransport entry.1 entry.2

/-- `WithAdditionalOptions(f, opts...)`. -/
def withAdditionalOptions [Inhabited Config] (grpc : List DialOption → Transport)
    (f : Factory Config Interceptor Transport)
    (opts : List (FactoryOption Config Interceptor Transport)) :
    Factory Config Interceptor Transport :=
  newFactory grpc
    ([.withDefaultsDisabled, .withConfig f.config, .withInterceptors f.interceptors] ++
      transportOptions f.transports ++ opts)

theorem applyAll_append (first second : List (FactoryOption Config Interceptor Transport))
    (f : Factory Config Interceptor Transport) :
    applyAll (first ++ second) f = applyAll second (applyAll first f) :=
  List.foldl_append _ _ _ _

/-- Copying the transports sets each of them, keeping the config and the interceptors. -/
theorem applyAll_transportOptions (transports : GoMap TransportProtocol Transport)
    (f : Factory Config Interceptor Transport) :
    applyAll (transportOptions transports) f =
      { f with transports := f.transports.assignAll transports } := by
  unfold transportOptions applyAll GoMap.assignAll
  generalize transports.entries = entries
  induction entries generalizing f with
  | nil => rfl
  | cons entry rest ih => exact ih _

/-! ### Factories that build the same clients -/

/-- The same config, the same interceptors in order, and the same transport for every
protocol: two Go maps with the same entries, whatever order they were filled in. -/
def Factory.Same (f g : Factory Config Interceptor Transport) : Prop :=
  f.config = g.config ∧ f.interceptors = g.interceptors ∧
    ∀ protocol, f.transports.lookup protocol = g.transports.lookup protocol

theorem FactoryOption.apply_same {f g : Factory Config Interceptor Transport}
    (same : f.Same g) (o : FactoryOption Config Interceptor Transport) :
    (o.apply f).Same (o.apply g) := by
  obtain ⟨config, interceptors, transports⟩ := same
  cases o with
  | withConfig c => exact ⟨rfl, interceptors, transports⟩
  | withTransport protocol factory =>
    refine ⟨config, interceptors, fun p => ?_⟩
    by_cases here : p = protocol
    · subst here
      simp [FactoryOption.apply]
    · simp [FactoryOption.apply, AList.lookup_insert_ne here, transports p]
  | withInterceptors is => exact ⟨config, congrArg (· ++ is) interceptors, transports⟩
  | withDefaultsDisabled => exact ⟨config, interceptors, transports⟩

theorem applyAll_same {f g : Factory Config Interceptor Transport} (same : f.Same g)
    (options : List (FactoryOption Config Interceptor Transport)) :
    (applyAll options f).Same (applyAll options g) := by
  induction options generalizing f g with
  | nil => exact same
  | cons o rest ih => exact ih (FactoryOption.apply_same same o)

/-- The options `WithAdditionalOptions` puts first rebuild the factory they copy. -/
theorem rebuild_same [Inhabited Config] (f : Factory Config Interceptor Transport) :
    (applyAll ([.withDefaultsDisabled, .withConfig f.config, .withInterceptors f.interceptors] ++
      transportOptions f.transports) ⟨default, [], ∅⟩).Same f := by
  rw [applyAll_append, applyAll_transportOptions]
  exact ⟨rfl, rfl, fun protocol => by simp [applyAll, FactoryOption.apply]⟩

theorem newFactory_of_disabled [Inhabited Config] (grpc : List DialOption → Transport)
    {options : List (FactoryOption Config Interceptor Transport)}
    (disabled : options.any FactoryOption.isDefaultsDisabled = true) :
    newFactory grpc options = applyAll options ⟨default, [], ∅⟩ := by
  simp [newFactory, disabled]

/-- `WithAdditionalOptions(f, opts...)` is `f` with `opts` applied on top, for every factory. -/
theorem withAdditionalOptions_same [Inhabited Config] (grpc : List DialOption → Transport)
    (f : Factory Config Interceptor Transport)
    (opts : List (FactoryOption Config Interceptor Transport)) :
    (withAdditionalOptions grpc f opts).Same (applyAll opts f) := by
  have disabled : ([FactoryOption.withDefaultsDisabled, .withConfig f.config,
      .withInterceptors f.interceptors] ++ transportOptions f.transports ++ opts).any
      FactoryOption.isDefaultsDisabled = true := rfl
  rw [withAdditionalOptions, newFactory_of_disabled grpc disabled, applyAll_append]
  exact applyAll_same (rebuild_same f) opts

/-! ### Building in two parts -/

/-- Options added later apply on top, unless they disable defaults the first ones kept. -/
theorem newFactory_append [Inhabited Config] (grpc : List DialOption → Transport)
    (o₁ o₂ : List (FactoryOption Config Interceptor Transport))
    (defaults : o₁.any FactoryOption.isDefaultsDisabled = true ∨
      o₂.any FactoryOption.isDefaultsDisabled = false) :
    newFactory grpc (o₁ ++ o₂) = applyAll o₂ (newFactory grpc o₁) := by
  have sameStart : (!(o₁ ++ o₂).any FactoryOption.isDefaultsDisabled) =
      !o₁.any FactoryOption.isDefaultsDisabled := by
    rcases defaults with first | second <;> simp [List.any_append, *]
  simp only [newFactory, sameStart, applyAll_append]

/-- **Extending a factory is building it once from all the options.** If the first options
disable the defaults, or the second do not, then `WithAdditionalOptions(*NewFactory(o₁...),
o₂...)` has the config, the interceptors and the transports of `NewFactory(o₁ ++ o₂...)`. -/
theorem withAdditionalOptions_newFactory [Inhabited Config] (grpc : List DialOption → Transport)
    (o₁ o₂ : List (FactoryOption Config Interceptor Transport))
    (defaults : o₁.any FactoryOption.isDefaultsDisabled = true ∨
      o₂.any FactoryOption.isDefaultsDisabled = false) :
    (withAdditionalOptions grpc (newFactory grpc o₁) o₂).Same
      (newFactory grpc (o₁ ++ o₂)) := by
  rw [newFactory_append grpc o₁ o₂ defaults]
  exact withAdditionalOptions_same grpc _ o₂

/-- Options with a list of accepted output modes as config, and names for interceptors and
transport factories. -/
abbrev TestOption := FactoryOption (List String) String String

/-- The options of the factory's test: a base factory with the defaults disabled, a config, an
interceptor and a transport, extended by a new config, interceptor and transport. -/
def baseOptions : List TestOption :=
  [.withDefaultsDisabled, .withConfig ["test"], .withInterceptors ["auth"],
    .withTransport "test" "mock"]

/-- The options the test extends its base factory with. -/
def newOptions : List TestOption :=
  [.withConfig ["new-test"], .withInterceptors ["auth"], .withTransport "new-test" "mock"]

/-- A gRPC transport factory that ignores its dial options. -/
def dialGRPC (_ : List Unit) : String := "grpc"

theorem withAdditionalOptions_newFactory_test :
    (baseOptions.any FactoryOption.isDefaultsDisabled = true ∨
      newOptions.any FactoryOption.isDefaultsDisabled = false) ∧
    (withAdditionalOptions dialGRPC (newFactory dialGRPC baseOptions) newOptions).Same
      (newFactory dialGRPC (baseOptions ++ newOptions)) :=
  ⟨.inl rfl, withAdditionalOptions_newFactory dialGRPC baseOptions newOptions (.inl rfl)⟩

/-! ### When only the added options disable the defaults -/

/-- `f` is `g` except at `protocol`, where `f` falls back to `fallback` if `g` has none. -/
def Factory.SameOr (f g : Factory Config Interceptor Transport) (protocol : TransportProtocol)
    (fallback : Transport) : Prop :=
  f.config = g.config ∧ f.interceptors = g.interceptors ∧
    f.transports.lookup protocol = (g.transports.lookup protocol).or (some fallback) ∧
    ∀ other, other ≠ protocol → f.transports.lookup other = g.transports.lookup other

theorem FactoryOption.apply_sameOr {f g : Factory Config Interceptor Transport} {protocol fallback}
    (sameOr : f.SameOr g protocol fallback) (o : FactoryOption Config Interceptor Transport) :
    (o.apply f).SameOr (o.apply g) protocol fallback := by
  obtain ⟨config, interceptors, here, others⟩ := sameOr
  cases o with
  | withConfig c => exact ⟨rfl, interceptors, here, others⟩
  | withTransport set factory =>
    refine ⟨config, interceptors, ?_, fun other ne => ?_⟩
    · by_cases same : protocol = set
      · subst same
        simp [FactoryOption.apply]
      · simp [FactoryOption.apply, AList.lookup_insert_ne same, here]
    · by_cases same : other = set
      · subst same
        simp [FactoryOption.apply]
      · simp [FactoryOption.apply, AList.lookup_insert_ne same, others other ne]
  | withInterceptors is => exact ⟨config, congrArg (· ++ is) interceptors, here, others⟩
  | withDefaultsDisabled => exact ⟨config, interceptors, here, others⟩

theorem applyAll_sameOr {f g : Factory Config Interceptor Transport} {protocol fallback}
    (sameOr : f.SameOr g protocol fallback)
    (options : List (FactoryOption Config Interceptor Transport)) :
    (applyAll options f).SameOr (applyAll options g) protocol fallback := by
  induction options generalizing f g with
  | nil => exact sameOr
  | cons o rest ih => exact ih (FactoryOption.apply_sameOr sameOr o)

theorem Factory.Same.sameOr {f g h : Factory Config Interceptor Transport} {protocol fallback}
    (same : f.Same g) (sameOr : g.SameOr h protocol fallback) : f.SameOr h protocol fallback :=
  ⟨same.1.trans sameOr.1, same.2.1.trans sameOr.2.1, (same.2.2 _).trans sameOr.2.2.1,
    fun other ne => (same.2.2 other).trans (sameOr.2.2.2 other ne)⟩

/-- **Extending keeps the default gRPC transport.** If only the added options disable the
defaults, the extended factory still maps `"GRPC"` to the default transport where no option sets
it, and `NewFactory(o₁ ++ o₂...)` does not; in everything else the two agree. -/
theorem withAdditionalOptions_keeps_grpc [Inhabited Config] (grpc : List DialOption → Transport)
    (o₁ o₂ : List (FactoryOption Config Interceptor Transport))
    (kept : o₁.any FactoryOption.isDefaultsDisabled = false)
    (dropped : o₂.any FactoryOption.isDefaultsDisabled = true) :
    (withAdditionalOptions grpc (newFactory grpc o₁) o₂).SameOr (newFactory grpc (o₁ ++ o₂))
      transportProtocolGRPC (grpc []) := by
  have disabled : (o₁ ++ o₂).any FactoryOption.isDefaultsDisabled = true := by
    simp [List.any_append, dropped]
  have defaults : (applyAll (defaultOptions grpc) ⟨default, [], ∅⟩).SameOr
      (⟨default, [], ∅⟩ : Factory Config Interceptor Transport) transportProtocolGRPC
      (grpc []) :=
    ⟨rfl, rfl, by simp [applyAll, defaultOptions, withGRPCTransport, FactoryOption.apply,
      -AList.insert_empty], fun other ne => by simp [applyAll, defaultOptions, withGRPCTransport,
        FactoryOption.apply, AList.lookup_insert_ne ne, -AList.insert_empty]⟩
  refine (withAdditionalOptions_same grpc _ o₂).sameOr ?_
  rw [newFactory_of_disabled grpc disabled, applyAll_append]
  simpa [newFactory, kept] using applyAll_sameOr (applyAll_sameOr defaults o₁) o₂

/-- Extending a factory built with the defaults by `WithDefaultsDisabled()` alone. -/
theorem withAdditionalOptions_keeps_grpc_disabled :
    ([] : List TestOption).any FactoryOption.isDefaultsDisabled = false ∧
      ([.withDefaultsDisabled] : List TestOption).any FactoryOption.isDefaultsDisabled = true ∧
      (withAdditionalOptions dialGRPC (newFactory dialGRPC ([] : List TestOption))
          [.withDefaultsDisabled]).SameOr
        (newFactory dialGRPC ([] ++ [.withDefaultsDisabled])) transportProtocolGRPC (dialGRPC []) :=
  ⟨rfl, rfl, withAdditionalOptions_keeps_grpc dialGRPC [] [.withDefaultsDisabled] rfl rfl⟩

example : (withAdditionalOptions dialGRPC (newFactory dialGRPC ([] : List TestOption))
      [.withDefaultsDisabled]).transports.lookup transportProtocolGRPC = some "grpc" ∧
    (newFactory dialGRPC ([.withDefaultsDisabled] : List TestOption)).transports.lookup
      transportProtocolGRPC = none := by decide

end Factory

end A2aGo.Client
