import A2aGo.Protocol.Types

/-!
**The client's `InMemoryCredentialsStore`: a map of maps that is one map of pairs.**

`InMemoryCredentialsStore` keeps, per session, a `SessionCredentials` map from a security scheme's
name to the credential, under a `sync.RWMutex`: each `Get` and each `Set` is one critical
section, so callers see the store one call at a time. `Set` makes the session's map if there is
none and then assigns into it; an assignment into a nil map would panic.

The store stands for one flat map, keyed by the pair `(sid, scheme)` (`flat`):

* `set_eq`: what one `Set` leaves, and that it never panics;
* `flat_set`: `Set(sid, scheme, credential)` changes the flat map at `(sid, scheme)` and nowhere
  else, and `get_eq_flatGet`: `Get` reads it;
* `credentials_get_last_set`: after any sequence of `Set` calls from
  `NewInMemoryCredentialsStore`, `Get(sid, scheme)` returns the credential of the last `Set` of
  that pair with a nil error, and `ErrCredentialNotFound` when there was none.
-/

namespace A2aGo.Client

open A2aGo.Protocol

/-- `SessionID`. -/
abbrev SessionID := String

/-- `a2a.SecuritySchemeName`. -/
abbrev SecuritySchemeName := String

/-- `AuthCredential`. -/
abbrev AuthCredential := String

/-- `SessionCredentials`. -/
abbrev SessionCredentials := GoMap SecuritySchemeName AuthCredential

/-- `ErrCredentialNotFound`, compared by identity. -/
inductive CredentialsError
  | credentialNotFound
  deriving DecidableEq, Repr

/-- `InMemoryCredentialsStore`; its `mu` makes each call one step. -/
structure InMemoryCredentialsStore where
  credentials : GoMap SessionID SessionCredentials

/-- `NewInMemoryCredentialsStore()`. -/
def newInMemoryCredentialsStore : InMemoryCredentialsStore := ⟨∅⟩

namespace InMemoryCredentialsStore

/-- `Get(ctx, sid, scheme)`: the credential and a nil error, or `AuthCredential("")` and
`ErrCredentialNotFound` when the session has no map or its map no credential for the scheme. -/
def get (s : InMemoryCredentialsStore) (sid : SessionID) (scheme : SecuritySchemeName) :
    AuthCredential × Option CredentialsError :=
  match s.credentials.lookup sid with
  | none => ("", some .credentialNotFound)
  | some forSession =>
    match forSession.lookup scheme with
    | none => ("", some .credentialNotFound)
    | some credential => (credential, none)

/-- `Set(sid, scheme, credential)`: `s.credentials[sid] = make(...)` if the session has no map,
then `s.credentials[sid][scheme] = credential`, an assignment into the map `s.credentials[sid]`
holds; `none` is the panic of an assignment into a nil map. -/
def set (s : InMemoryCredentialsStore) (sid : SessionID) (scheme : SecuritySchemeName)
    (credential : AuthCredential) : Option InMemoryCredentialsStore :=
  let credentials := match s.credentials.lookup sid with
    | some _ => s.credentials
    | none => s.credentials.insert sid ∅
  (credentials.lookup sid).map fun forSession =>
    ⟨credentials.insert sid (forSession.insert scheme credential)⟩

/-- `Set` calls one after another, each `(sid, scheme, credential)`; `none` if one panics. -/
def setAll (s : InMemoryCredentialsStore) :
    List (SessionID × SecuritySchemeName × AuthCredential) → Option InMemoryCredentialsStore
  | [] => some s
  | (sid, scheme, credential) :: rest => (s.set sid scheme credential).bind fun s' => s'.setAll rest

/-- The flat map the store stands for: the credential of each (session, scheme) pair. -/
def flat (s : InMemoryCredentialsStore) (key : SessionID × SecuritySchemeName) :
    Option AuthCredential :=
  (s.credentials.lookup key.1).bind fun forSession => forSession.lookup key.2

end InMemoryCredentialsStore

/-- `Get` on a flat map: the credential with a nil error, or `ErrCredentialNotFound`. -/
def flatGet : Option AuthCredential → AuthCredential × Option CredentialsError
  | some credential => (credential, none)
  | none => ("", some .credentialNotFound)

/-- The credential of the last of `sets` whose pair is `key`. -/
def lastSet (sets : List (SessionID × SecuritySchemeName × AuthCredential))
    (key : SessionID × SecuritySchemeName) : Option AuthCredential :=
  (sets.reverse.find? fun set => (set.1, set.2.1) = key).map fun set => set.2.2

/-- The flat map after `sets`, one `Function.update` per `Set`. -/
def flatSetAll (flat : SessionID × SecuritySchemeName → Option AuthCredential)
    (sets : List (SessionID × SecuritySchemeName × AuthCredential)) :
    SessionID × SecuritySchemeName → Option AuthCredential :=
  sets.foldl (fun flat set => Function.update flat (set.1, set.2.1) (some set.2.2)) flat

namespace InMemoryCredentialsStore

/-! ### One call -/

section Calls

variable (s : InMemoryCredentialsStore) (sid : SessionID) (scheme : SecuritySchemeName)

/-- **`Get` reads the flat map.** -/
theorem get_eq_flatGet : s.get sid scheme = flatGet (s.flat (sid, scheme)) := by
  unfold get flat
  cases s.credentials.lookup sid with
  | none => rfl
  | some forSession =>
    dsimp only [Option.some_bind]
    cases forSession.lookup scheme <;> rfl

/-- `Set` never panics: it leaves the session's map, or a new one, with the credential
assigned. -/
theorem set_eq (credential : AuthCredential) :
    s.set sid scheme credential = some
      ⟨s.credentials.insert sid (((s.credentials.lookup sid).getD ∅).insert scheme credential)⟩ := by
  unfold set
  cases found : s.credentials.lookup sid with
  | none => simp only [AList.lookup_insert, Option.map_some', AList.insert_insert, Option.getD_none]
  | some forSession => simp only [found, Option.map_some', Option.getD_some]

/-- **`Set` changes the flat map at its own pair and nowhere else.** -/
theorem flat_set (credential : AuthCredential) {s' : InMemoryCredentialsStore}
    (set : s.set sid scheme credential = some s') :
    s'.flat = Function.update s.flat (sid, scheme) (some credential) := by
  rw [set_eq, Option.some.injEq] at set
  subst set
  funext ⟨sid', scheme'⟩
  by_cases sameSid : sid' = sid
  · subst sameSid
    by_cases sameScheme : scheme' = scheme
    · subst sameScheme
      simp only [flat, AList.lookup_insert, Option.some_bind, Function.update_same]
    · have other : (sid', scheme') ≠ (sid', scheme) := fun same =>
        sameScheme (Prod.ext_iff.mp same).2
      simp only [flat, AList.lookup_insert, Option.some_bind, AList.lookup_insert_ne sameScheme,
        Function.update_noteq other]
      cases s.credentials.lookup sid' <;> rfl
  · have other : (sid', scheme') ≠ (sid, scheme) := fun same => sameSid (Prod.ext_iff.mp same).1
    simp only [flat, AList.lookup_insert_ne sameSid, Function.update_noteq other]

end Calls

/-! ### A sequence of calls -/

/-- A run of `Set` calls never panics, and leaves the flat map updated by each in turn. -/
theorem setAll_flat (s : InMemoryCredentialsStore)
    (sets : List (SessionID × SecuritySchemeName × AuthCredential)) :
    ∃ s', s.setAll sets = some s' ∧ s'.flat = flatSetAll s.flat sets := by
  induction sets generalizing s with
  | nil => exact ⟨s, rfl, rfl⟩
  | cons set rest ih =>
    obtain ⟨sid, scheme, credential⟩ := set
    obtain ⟨s', ran, flat⟩ := ih ⟨s.credentials.insert sid
      (((s.credentials.lookup sid).getD ∅).insert scheme credential)⟩
    refine ⟨s', by rw [setAll, set_eq, Option.some_bind, ran], ?_⟩
    rw [flat, flat_set s sid scheme credential (set_eq s sid scheme credential)]
    rfl

end InMemoryCredentialsStore

/-- The last `Set` of a pair is the last in `sets`, or else `set` itself. -/
theorem lastSet_cons (set : SessionID × SecuritySchemeName × AuthCredential)
    (sets : List (SessionID × SecuritySchemeName × AuthCredential))
    (key : SessionID × SecuritySchemeName) :
    lastSet (set :: sets) key =
      (lastSet sets key).or (if (set.1, set.2.1) = key then some set.2.2 else none) := by
  unfold lastSet
  rw [List.reverse_cons, List.find?_append, List.find?_singleton, Option.map_or']
  congr 1
  by_cases same : (set.1, set.2.1) = key <;>
    simp only [same, decide_True, decide_False, Bool.false_eq_true, if_true, if_false,
      Option.map_some', Option.map_none']

/-- The flat map after `sets` holds, at each pair, the last `Set` of it, or what it held. -/
theorem flatSetAll_apply (flat : SessionID × SecuritySchemeName → Option AuthCredential)
    (sets : List (SessionID × SecuritySchemeName × AuthCredential))
    (key : SessionID × SecuritySchemeName) :
    flatSetAll flat sets key = (lastSet sets key).or (flat key) := by
  induction sets generalizing flat with
  | nil => rfl
  | cons set rest ih =>
    rw [flatSetAll, List.foldl_cons, ← flatSetAll, ih, lastSet_cons, Option.or_assoc]
    congr 1
    by_cases same : (set.1, set.2.1) = key
    · subst same
      rw [Function.update_same, if_pos rfl, Option.or_some]
    · rw [Function.update_noteq (Ne.symm same), if_neg same, Option.none_or]

/-- **`Get` returns the last `Set` of its pair**: after any sequence of `Set` calls from
`NewInMemoryCredentialsStore`, none of which panics, `Get(sid, scheme)` returns the credential of
the last `Set` with exactly that pair and a nil error, and `ErrCredentialNotFound` when there was
none. -/
theorem credentials_get_last_set (sets : List (SessionID × SecuritySchemeName × AuthCredential)) :
    ∃ s, newInMemoryCredentialsStore.setAll sets = some s ∧
      ∀ sid scheme, s.get sid scheme = flatGet (lastSet sets (sid, scheme)) := by
  obtain ⟨s, ran, flat⟩ := newInMemoryCredentialsStore.setAll_flat sets
  refine ⟨s, ran, fun sid scheme => ?_⟩
  rw [InMemoryCredentialsStore.get_eq_flatGet, flat, flatSetAll_apply]
  exact congrArg flatGet Option.or_none

/-- `TestInMemoryCredentialsStore`, and a second scheme of the same session, which keeps the
first. -/
example :
    (newInMemoryCredentialsStore.setAll [("test-session", "test-scheme", "test-credential"),
      ("test-session", "test-scheme", "new-credential"),
      ("test-session", "other-scheme", "other-credential")]).map
        (fun s => (s.get "test-session" "test-scheme", s.get "other-session" "test-scheme")) =
      some (("new-credential", none), ("", some .credentialNotFound)) := by
  decide

end A2aGo.Client
