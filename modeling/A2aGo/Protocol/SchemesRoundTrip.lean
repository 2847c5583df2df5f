import A2aGo.Protocol.SecuritySchemes

/-!
**`NamedSecuritySchemes` read back what `json.Marshal` wrote.**

Each of the structs reads back what it writes (`Fields.Lawful`, one theorem per struct, from
`decodeStruct_encodeStruct`). Each scheme type's tag is the one `decodeScheme` maps back to the
type, and no field of the type is named `"type"` or folds to it, so:

* `unmarshalScheme_marshalWithType`: the `typedScheme` read of what `MarshalJSON` wrote is its
  tag, and the read as the type is the value written;
* `unmarshalScheme_marshalJSON`: every scheme value reads back itself;
* `unmarshalJSON_marshal`: **`UnmarshalJSON` of `json.Marshal(s)` is `s`, for every non-nil
  map `s` of scheme values and every order the `range` over it takes.**
* `unmarshalJSON_order_free`: on any JSON value, whether `UnmarshalJSON` succeeds and the map it
  stores do not depend on the order of its `range`; an error is that of some raw value.
-/

namespace A2aGo.Protocol

open A2aGo.Json

/-! ### Every struct reads back what it writes -/

theorem TypedScheme.lawful : TypedScheme.jsonFields.Lawful {} where
  lookup := Fields.lookup_of_nodup (by decide)
  set_get := by simp [TypedScheme.jsonFields, stringField]
  independent := by simp [TypedScheme.jsonFields]
  roundTrips := by
    simp only [TypedScheme.jsonFields, List.forall_mem_cons, List.not_mem_nil, false_implies,
      implies_true, and_true]
    exact stringField_roundTrips _ _ _ _ _
  rebuild _ := rfl

theorem APIKeySecurityScheme.lawful : APIKeySecurityScheme.jsonFields.Lawful {} where
  lookup := Fields.lookup_of_nodup (by decide)
  set_get := by simp [APIKeySecurityScheme.jsonFields, stringField]
  independent := by simp [APIKeySecurityScheme.jsonFields, stringField]
  roundTrips := by
    simp only [APIKeySecurityScheme.jsonFields, List.forall_mem_cons, List.not_mem_nil,
      false_implies, implies_true, and_true]
    exact ⟨stringField_roundTrips _ _ _ _ _, stringField_roundTrips _ _ _ _ _,
      stringField_roundTrips _ _ _ _ _⟩
  rebuild _ := rfl

theorem HTTPAuthSecurityScheme.lawful : HTTPAuthSecurityScheme.jsonFields.Lawful {} where
  lookup := Fields.lookup_of_nodup (by decide)
  set_get := by simp [HTTPAuthSecurityScheme.jsonFields, stringField]
  independent := by simp [HTTPAuthSecurityScheme.jsonFields, stringField]
  roundTrips := by
    simp only [HTTPAuthSecurityScheme.jsonFields, List.forall_mem_cons, List.not_mem_nil,
      false_implies, implies_true, and_true]
    exact ⟨stringField_roundTrips _ _ _ _ _, stringField_roundTrips _ _ _ _ _,
      stringField_roundTrips _ _ _ _ _⟩
  rebuild _ := rfl

theorem MutualTLSSecurityScheme.lawful : MutualTLSSecurityScheme.jsonFields.Lawful {} where
  lookup := Fields.lookup_of_nodup (by decide)
  set_get := by simp [MutualTLSSecurityScheme.jsonFields, stringField]
  independent := by simp [MutualTLSSecurityScheme.jsonFields]
  roundTrips := by
    simp only [MutualTLSSecurityScheme.jsonFields, List.forall_mem_cons, List.not_mem_nil,
      false_implies, implies_true, and_true]
    exact stringField_roundTrips _ _ _ _ _
  rebuild _ := rfl

theorem OpenIDConnectSecurityScheme.lawful : OpenIDConnectSecurityScheme.jsonFields.Lawful {} where
  lookup := Fields.lookup_of_nodup (by decide)
  set_get := by simp [OpenIDConnectSecurityScheme.jsonFields, stringField]
  independent := by simp [OpenIDConnectSecurityScheme.jsonFields, stringField]
  roundTrips := by
    simp only [OpenIDConnectSecurityScheme.jsonFields, List.forall_mem_cons, List.not_mem_nil,
      false_implies, implies_true, and_true]
    exact ⟨stringField_roundTrips _ _ _ _ _, stringField_roundTrips _ _ _ _ _⟩
  rebuild _ := rfl

theorem AuthorizationCodeOAuthFlow.lawful : AuthorizationCodeOAuthFlow.jsonFields.Lawful {} where
  lookup := Fields.lookup_of_nodup (by decide)
  set_get := by simp [AuthorizationCodeOAuthFlow.jsonFields, stringField, stringMapField]
  independent := by simp [AuthorizationCodeOAuthFlow.jsonFields, stringField, stringMapField]
  roundTrips := by
    simp only [AuthorizationCodeOAuthFlow.jsonFields, List.forall_mem_cons, List.not_mem_nil,
      false_implies, implies_true, and_true]
    exact ⟨stringField_roundTrips _ _ _ _ _, stringField_roundTrips _ _ _ _ _,
      stringMapField_roundTrips _ _ _, stringField_roundTrips _ _ _ _ _⟩
  rebuild _ := rfl

theorem ClientCredentialsOAuthFlow.lawful : ClientCredentialsOAuthFlow.jsonFields.Lawful {} where
  lookup := Fields.lookup_of_nodup (by decide)
  set_get := by simp [ClientCredentialsOAuthFlow.jsonFields, stringField, stringMapField]
  independent := by simp [ClientCredentialsOAuthFlow.jsonFields, stringField, stringMapField]
  roundTrips := by
    simp only [ClientCredentialsOAuthFlow.jsonFields, List.forall_mem_cons, List.not_mem_nil,
      false_implies, implies_true, and_true]
    exact ⟨stringField_roundTrips _ _ _ _ _, stringMapField_roundTrips _ _ _,
      stringField_roundTrips _ _ _ _ _⟩
  rebuild _ := rfl

theorem ImplicitOAuthFlow.lawful : ImplicitOAuthFlow.jsonFields.Lawful {} where
  lookup := Fields.lookup_of_nodup (by decide)
  set_get := by simp [ImplicitOAuthFlow.jsonFields, stringField, stringMapField]
  independent := by simp [ImplicitOAuthFlow.jsonFields, stringField, stringMapField]
  roundTrips := by
    simp only [ImplicitOAuthFlow.jsonFields, List.forall_mem_cons, List.not_mem_nil,
      false_implies, implies_true, and_true]
    exact ⟨stringField_roundTrips _ _ _ _ _, stringField_roundTrips _ _ _ _ _,
      stringMapField_roundTrips _ _ _⟩
  rebuild _ := rfl

theorem PasswordOAuthFlow.lawful : PasswordOAuthFlow.jsonFields.Lawful {} where
  lookup := Fields.lookup_of_nodup (by decide)
  set_get := by simp [PasswordOAuthFlow.jsonFields, stringField, stringMapField]
  independent := by simp [PasswordOAuthFlow.jsonFields, stringField, stringMapField]
  roundTrips := by
    simp only [PasswordOAuthFlow.jsonFields, List.forall_mem_cons, List.not_mem_nil,
      false_implies, implies_true, and_true]
    exact ⟨stringField_roundTrips _ _ _ _ _, stringMapField_roundTrips _ _ _,
      stringField_roundTrips _ _ _ _ _⟩
  rebuild _ := rfl

theorem OAuthFlows.lawful : OAuthFlows.jsonFields.Lawful {} where
  lookup := Fields.lookup_of_nodup (by decide)
  set_get := by simp [OAuthFlows.jsonFields, pointerField]
  independent := by simp [OAuthFlows.jsonFields, pointerField]
  roundTrips := by
    simp only [OAuthFlows.jsonFields, List.forall_mem_cons, List.not_mem_nil, false_implies,
      implies_true, and_true]
    exact ⟨pointerField_roundTrips _ _ AuthorizationCodeOAuthFlow.lawful _ _,
      pointerField_roundTrips _ _ ClientCredentialsOAuthFlow.lawful _ _,
      pointerField_roundTrips _ _ ImplicitOAuthFlow.lawful _ _,
      pointerField_roundTrips _ _ PasswordOAuthFlow.lawful _ _⟩
  rebuild _ := rfl

theorem OAuth2SecurityScheme.lawful : OAuth2SecurityScheme.jsonFields.Lawful {} where
  lookup := Fields.lookup_of_nodup (by decide)
  set_get := by simp [OAuth2SecurityScheme.jsonFields, stringField, structField]
  independent := by simp [OAuth2SecurityScheme.jsonFields, stringField, structField]
  roundTrips := by
    simp only [OAuth2SecurityScheme.jsonFields, List.forall_mem_cons, List.not_mem_nil,
      false_implies, implies_true, and_true]
    exact ⟨stringField_roundTrips _ _ _ _ _, structField_roundTrips _ _ OAuthFlows.lawful _ _,
      stringField_roundTrips _ _ _ _ _⟩
  rebuild _ := rfl

/-! ### A scheme reads back what `MarshalJSON` wrote -/

section Schemes

variable {T : Type}

/-- A name the `typedScheme` read skips is not `"type"`. -/
theorem ne_type_of_lookup {name : String} (skipped : TypedScheme.jsonFields.lookup name = none) :
    name ≠ "type" := by
  rintro rfl
  cases skipped

/-- No field is taken by `typedScheme`, checked name by name. -/
theorem untyped_of_all {fields : Fields T}
    (check : fields.all (fun field => (TypedScheme.jsonFields.lookup field.2.name).isNone)) :
    ∀ field ∈ fields, TypedScheme.jsonFields.lookup field.2.name = none := fun field mem =>
  Option.isNone_iff_eq_none.mp (List.all_eq_true.mp check field mem)

/-- With no field that `typedScheme` takes, `withType`'s `Type` hides nothing. -/
theorem marshalWithType_eq {fields : Fields T}
    (untyped : ∀ field ∈ fields, TypedScheme.jsonFields.lookup field.2.name = none)
    (tag : String) (s : T) :
    marshalWithType tag fields s = .object (("type", .string tag) :: members fields s) := by
  rw [marshalWithType, List.filter_eq_self.mpr fun member mem => ?_]
  obtain ⟨field, inFields, named⟩ := mem_members mem
  rw [named]
  exact bne_iff_ne.mpr (ne_type_of_lookup (untyped field inFields))

/-- **The read of a scheme type's `MarshalJSON`**: when no field of the type is taken by
`typedScheme`'s `"type"` and none is named `"type"` or folds to it, the `typedScheme` read of what
`MarshalJSON` wrote is its tag, and the read as the type is the value written. -/
theorem unmarshalScheme_marshalWithType {fields : Fields T} {zero : T} (lawful : fields.Lawful zero)
    (untyped : ∀ field ∈ fields, TypedScheme.jsonFields.lookup field.2.name = none)
    (typeSkipped : fields.lookup "type" = none) (tag goType : String) (s : T) :
    decodeStruct "a2a.typedScheme" TypedScheme.jsonFields {} (marshalWithType tag fields s) =
        .ok ⟨tag⟩ ∧
      decodeStruct goType fields zero (marshalWithType tag fields s) = .ok s := by
  rw [marshalWithType_eq untyped]
  refine ⟨decodeStruct_encodeStruct TypedScheme.lawful _ ⟨tag⟩ [] (members fields s)
    fun member mem => ?_, ?_⟩
  · obtain ⟨field, inFields, named⟩ :=
      mem_members (List.mem_append.mp mem |>.resolve_left nofun)
    rw [named]
    exact untyped field inFields
  · have decoded := decodeStruct_encodeStruct lawful goType s [("type", .string tag)] []
      fun member mem => by
        rw [List.append_nil, List.mem_singleton] at mem
        rw [mem]
        exact typeSkipped
    rwa [List.append_nil] at decoded

/-- A scheme type's `MarshalJSON` reads back through `UnmarshalJSON`'s loop body, when the tag
it writes is one the `switch` maps back to the type. -/
theorem unmarshalScheme_of_dispatch {fields : Fields T} {zero : T}
    (lawful : fields.Lawful zero)
    (untyped : ∀ field ∈ fields, TypedScheme.jsonFields.lookup field.2.name = none)
    (typeSkipped : fields.lookup "type" = none) {tag goType : String} {wrap : T → SecurityScheme}
    (dispatch : ∀ raw, decodeScheme tag raw = wrap <$> decodeStruct goType fields zero raw)
    (s : T) :
    unmarshalScheme (marshalWithType tag fields s) = .ok (wrap s) := by
  obtain ⟨typed, decoded⟩ :=
    unmarshalScheme_marshalWithType lawful untyped typeSkipped tag goType s
  rw [unmarshalScheme, typed, ok_bind, dispatch, decoded]
  rfl

/-- **Every scheme value reads back itself** from what its `MarshalJSON` wrote. -/
theorem unmarshalScheme_marshalJSON (scheme : SecurityScheme) :
    unmarshalScheme scheme.marshalJSON = .ok scheme := by
  cases scheme with
  | apiKey s =>
    exact unmarshalScheme_of_dispatch APIKeySecurityScheme.lawful (untyped_of_all rfl) rfl
      (fun _ => rfl) s
  | http s =>
    exact unmarshalScheme_of_dispatch HTTPAuthSecurityScheme.lawful (untyped_of_all rfl) rfl
      (fun _ => rfl) s
  | mutualTLS s =>
    exact unmarshalScheme_of_dispatch MutualTLSSecurityScheme.lawful (untyped_of_all rfl) rfl
      (fun _ => rfl) s
  | oauth2 s =>
    exact unmarshalScheme_of_dispatch OAuth2SecurityScheme.lawful (untyped_of_all rfl) rfl
      (fun _ => rfl) s
  | openIdConnect s =>
    exact unmarshalScheme_of_dispatch OpenIDConnectSecurityScheme.lawful
      (untyped_of_all rfl) rfl (fun _ => rfl) s

end Schemes

/-! ### The map -/

/-- **`UnmarshalJSON` reads back `json.Marshal` of every non-nil map of scheme values**, in
every order the `range` over the raw map takes: the result is deep-equal to the map written. -/
theorem unmarshalJSON_marshal (range : RangeOrder JsonValue) (s : StringMap SecurityScheme) :
    NamedSecuritySchemes.unmarshalJSON range (NamedSecuritySchemes.marshal (some s)) =
      .ok (some s) := by
  obtain ⟨raw, decoded, lookups⟩ := decodeMap_encodeMap_raw
    "map[a2a.SecuritySchemeName]json.RawMessage" .null SecurityScheme.marshalJSON s
  rw [NamedSecuritySchemes.unmarshalJSON, NamedSecuritySchemes.marshal, decoded, ok_bind,
    Option.getD_some, foldlM_range unmarshalScheme _ (range.perm raw)
      (fun key json found => ?_) (fun key absent => ?_)]
  · rfl
  · rw [lookups] at found
    obtain ⟨scheme, stored, rfl⟩ := Option.map_eq_some'.mp found
    exact ⟨scheme, stored, unmarshalScheme_marshalJSON scheme⟩
  · rw [lookups] at absent
    exact Option.map_eq_none'.mp absent

/-- The schemes of `TestSecuritySchemeJSONCodec`. -/
def codecTestSchemes : StringMap SecurityScheme :=
  (∅ : StringMap SecurityScheme)
    |>.insert "name1" (.apiKey { name := "abc", «in» := "cookie" })
    |>.insert "name2" (.openIdConnect { openIDConnectURL := "url" })
    |>.insert "name3" (.mutualTLS { description := "optional" })
    |>.insert "name4" (.http { scheme := "Bearer", bearerFormat := "JWT" })
    |>.insert "name5" (.oauth2 { flows := { password := some {
      tokenURL := "url", scopes := some ((∅ : StringMap String).insert "email" "read user emails")
    } } })

/-- The document `wantJSON` of `TestSecuritySchemeJSONCodec`. -/
def codecTestJSON : JsonValue :=
  .object [
    ("name1", .object [("type", .string "apiKey"), ("in", .string "cookie"),
      ("name", .string "abc")]),
    ("name2", .object [("type", .string "openIdConnect"), ("openIdConnectUrl", .string "url")]),
    ("name3", .object [("type", .string "mutualTLS"), ("description", .string "optional")]),
    ("name4", .object [("type", .string "http"), ("bearerFormat", .string "JWT"),
      ("scheme", .string "Bearer")]),
    ("name5", .object [("type", .string "oauth2"), ("flows", .object [("password", .object [
      ("scopes", .object [("email", .string "read user emails")]),
      ("tokenUrl", .string "url")])])])]

/-- The test's document is what `json.Marshal` writes for its schemes, and reads back to them:
the decode the test checks, and the encode-then-decode its last check means to. -/
example : NamedSecuritySchemes.marshal (some codecTestSchemes) = codecTestJSON := rfl

example : (NamedSecuritySchemes.unmarshalJSON .sorted codecTestJSON).toOption =
    some (some codecTestSchemes) := by
  decide

/-- A nil map does not read back: `json.Marshal` writes `null`, and `UnmarshalJSON` stores an
empty map, not a nil one. -/
theorem unmarshalJSON_marshal_nil (range : RangeOrder JsonValue) :
    NamedSecuritySchemes.unmarshalJSON range (NamedSecuritySchemes.marshal none) =
      .ok (some ∅) := by
  rw [NamedSecuritySchemes.unmarshalJSON, NamedSecuritySchemes.marshal, encodeMap, decodeMap,
    ok_bind, Option.getD_none, foldlM_range unmarshalScheme _ (range.perm ∅) (fun _ _ found => ?_)
      fun _ _ => ?_]
  · rfl
  · cases found
  · rfl

/-! ### Any document, in any order -/

/-- **What `UnmarshalJSON` makes of any JSON value does not depend on the order of its `range`.**
It succeeds exactly when the value reads as a `map[SecuritySchemeName]json.RawMessage` (or is
`null`) and every raw value reads as a scheme; the map it stores then holds each key's scheme and
no other key. When it fails, the error is the one reading the map gave, or that of some raw
value: which one, when several fail, is the first the `range` meets. -/
theorem unmarshalJSON_order_free (range : RangeOrder JsonValue) (b : JsonValue) :
    (∀ s, NamedSecuritySchemes.unmarshalJSON range b = .ok s ↔
      ∃ raw, decodeMap "map[a2a.SecuritySchemeName]json.RawMessage" .null
          (fun _ raw => .ok raw) none b = .ok raw ∧
        ∃ m, s = some m ∧
          (∀ key json, (raw.getD ∅).lookup key = some json →
            ∃ scheme, unmarshalScheme json = .ok scheme ∧ m.lookup key = some scheme) ∧
          ∀ key, (raw.getD ∅).lookup key = none → m.lookup key = none) ∧
    ∀ err, NamedSecuritySchemes.unmarshalJSON range b = .error err →
      decodeMap "map[a2a.SecuritySchemeName]json.RawMessage" .null
          (fun _ raw => .ok raw) none b = .error err ∨
        ∃ raw key json, decodeMap "map[a2a.SecuritySchemeName]json.RawMessage" .null
            (fun _ raw => .ok raw) none b = .ok raw ∧
          (raw.getD ∅).lookup key = some json ∧ unmarshalScheme json = .error err := by
  cases read : decodeMap "map[a2a.SecuritySchemeName]json.RawMessage" .null
      (fun _ raw => .ok raw) none b with
  | error first =>
    simp only [NamedSecuritySchemes.unmarshalJSON, read]
    exact ⟨fun s => iff_of_false nofun (fun ⟨_, failed, _⟩ => nomatch failed),
      fun err failed => .inl (by cases failed; rfl)⟩
  | ok raw =>
    have distinct := range.keys_nodup (raw.getD ∅)
    have ranges := foldlM_range_ok_iff unmarshalScheme distinct
    simp only [range.mem_order, range.not_mem_keys] at ranges
    cases ran : (range.order (raw.getD ∅)).foldlM
        (fun result entry => (fun scheme => result.insert entry.1 scheme) <$>
          unmarshalScheme entry.2) (∅ : StringMap SecurityScheme) with
    | error failure =>
      simp only [NamedSecuritySchemes.unmarshalJSON, read, ok_bind, ran]
      refine ⟨fun s => iff_of_false nofun fun ⟨_, same, m, _, laws⟩ => ?_,
        fun err failed => ?_⟩
      · cases same
        rw [(ranges m).mpr laws] at ran
        cases ran
      · cases failed
        obtain ⟨⟨key, json⟩, visited, decoded⟩ := foldlM_insert_error unmarshalScheme ran
        exact .inr ⟨raw, key, json, rfl, range.mem_order.mp visited, decoded⟩
    | ok m =>
      simp only [NamedSecuritySchemes.unmarshalJSON, read, ok_bind, ran]
      refine ⟨fun s => ⟨?_, ?_⟩, fun err failed => (nomatch failed)⟩
      · rintro ⟨⟩
        exact ⟨raw, rfl, m, rfl, (ranges m).mp ran⟩
      · rintro ⟨_, same, m', rfl, laws⟩
        cases same
        rw [(ranges m').mpr laws] at ran
        cases ran
        rfl

end A2aGo.Protocol
