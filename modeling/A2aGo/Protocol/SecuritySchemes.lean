import A2aGo.Json.Encoding

/-!
**The security schemes of an agent card, and how they are written to JSON and read back.**

`NamedSecuritySchemes` maps a scheme's name to one of five scheme types. Each type's `MarshalJSON`
writes its fields behind a `"type"` member naming the type (`marshalWithType`), and
`NamedSecuritySchemes.UnmarshalJSON` reads the map as raw values, reads each value's `"type"`
into a `typedScheme`, and decodes the value as the type the tag names (`decodeScheme`); an
unknown tag is an error. Go ranges over the raw map in an order it does not fix
(`RangeOrder`).

The structs are written with their fields by JSON name, in the order of their declarations, each
with its `omitempty` (`APIKeySecurityScheme.jsonFields` and the like). A nil `Scopes` map is
`none`, a nil flow pointer is `none`.
-/

namespace A2aGo.Protocol

open A2aGo.Json

/-- `SecuritySchemeName`. -/
abbrev SecuritySchemeName := String

/-- `APIKeySecuritySchemeIn`, a string type. -/
abbrev APIKeySecuritySchemeIn := String

/-! ### The scheme types, field by field -/

/-- `APIKeySecurityScheme`. -/
structure APIKeySecurityScheme where
  description : String := ""
  «in» : APIKeySecuritySchemeIn := ""
  name : String := ""
  deriving DecidableEq

/-- `AuthorizationCodeOAuthFlow`. -/
structure AuthorizationCodeOAuthFlow where
  authorizationURL : String := ""
  refreshURL : String := ""
  scopes : Option (StringMap String) := none
  tokenURL : String := ""
  deriving DecidableEq

/-- `ClientCredentialsOAuthFlow`. -/
structure ClientCredentialsOAuthFlow where
  refreshURL : String := ""
  scopes : Option (StringMap String) := none
  tokenURL : String := ""
  deriving DecidableEq

/-- `HTTPAuthSecurityScheme`. -/
structure HTTPAuthSecurityScheme where
  bearerFormat : String := ""
  description : String := ""
  scheme : String := ""
  deriving DecidableEq

/-- `ImplicitOAuthFlow`. -/
structure ImplicitOAuthFlow where
  authorizationURL : String := ""
  refreshURL : String := ""
  scopes : Option (StringMap String) := none
  deriving DecidableEq

/-- `MutualTLSSecurityScheme`. -/
structure MutualTLSSecurityScheme where
  description : String := ""
  deriving DecidableEq

/-- `PasswordOAuthFlow`. -/
structure PasswordOAuthFlow where
  refreshURL : String := ""
  scopes : Option (StringMap String) := none
  tokenURL : String := ""
  deriving DecidableEq

/-- `OAuthFlows`: a pointer to each flow, nil when the flow is not offered. -/
structure OAuthFlows where
  authorizationCode : Option AuthorizationCodeOAuthFlow := none
  clientCredentials : Option ClientCredentialsOAuthFlow := none
  implicit : Option ImplicitOAuthFlow := none
  password : Option PasswordOAuthFlow := none
  deriving DecidableEq

/-- `OAuth2SecurityScheme`. -/
structure OAuth2SecurityScheme where
  description : String := ""
  flows : OAuthFlows := {}
  oauth2MetadataURL : String := ""
  deriving DecidableEq

/-- `OpenIDConnectSecurityScheme`. -/
structure OpenIDConnectSecurityScheme where
  description : String := ""
  openIDConnectURL : String := ""
  deriving DecidableEq

/-- `APIKeySecurityScheme`'s fields, by their `json` tags. -/
def APIKeySecurityScheme.jsonFields : Fields APIKeySecurityScheme :=
  [stringField "description" true "string" (·.description) fun s v => { s with description := v },
   stringField "in" false "a2a.APIKeySecuritySchemeIn" (·.«in»)
     fun s v => { s with «in» := v },
   stringField "name" false "string" (·.name) fun s v => { s with name := v }]

/-- `AuthorizationCodeOAuthFlow`'s fields. -/
def AuthorizationCodeOAuthFlow.jsonFields : Fields AuthorizationCodeOAuthFlow :=
  [stringField "authorizationUrl" false "string" (·.authorizationURL)
     fun s v => { s with authorizationURL := v },
   stringField "refreshUrl" true "string" (·.refreshURL) fun s v => { s with refreshURL := v },
   stringMapField "scopes" (·.scopes) fun s v => { s with scopes := v },
   stringField "tokenUrl" false "string" (·.tokenURL) fun s v => { s with tokenURL := v }]

/-- `ClientCredentialsOAuthFlow`'s fields. -/
def ClientCredentialsOAuthFlow.jsonFields : Fields ClientCredentialsOAuthFlow :=
  [stringField "refreshUrl" true "string" (·.refreshURL) fun s v => { s with refreshURL := v },
   stringMapField "scopes" (·.scopes) fun s v => { s with scopes := v },
   stringField "tokenUrl" false "string" (·.tokenURL) fun s v => { s with tokenURL := v }]

/-- `HTTPAuthSecurityScheme`'s fields. -/
def HTTPAuthSecurityScheme.jsonFields : Fields HTTPAuthSecurityScheme :=
  [stringField "bearerFormat" true "string" (·.bearerFormat)
     fun s v => { s with bearerFormat := v },
   stringField "description" true "string" (·.description) fun s v => { s with description := v },
   stringField "scheme" false "string" (·.scheme) fun s v => { s with scheme := v }]

/-- `ImplicitOAuthFlow`'s fields. -/
def ImplicitOAuthFlow.jsonFields : Fields ImplicitOAuthFlow :=
  [stringField "authorizationUrl" false "string" (·.authorizationURL)
     fun s v => { s with authorizationURL := v },
   stringField "refreshUrl" true "string" (·.refreshURL) fun s v => { s with refreshURL := v },
   stringMapField "scopes" (·.scopes) fun s v => { s with scopes := v }]

/-- `MutualTLSSecurityScheme`'s fields. -/
def MutualTLSSecurityScheme.jsonFields : Fields MutualTLSSecurityScheme :=
  [stringField "description" true "string" (·.description) fun s v => { s with description := v }]

/-- `PasswordOAuthFlow`'s fields. -/
def PasswordOAuthFlow.jsonFields : Fields PasswordOAuthFlow :=
  [stringField "refreshUrl" true "string" (·.refreshURL) fun s v => { s with refreshURL := v },
   stringMapField "scopes" (·.scopes) fun s v => { s with scopes := v },
   stringField "tokenUrl" false "string" (·.tokenURL) fun s v => { s with tokenURL := v }]

/-- `OAuthFlows`'s fields, each an `omitempty` pointer. -/
def OAuthFlows.jsonFields : Fields OAuthFlows :=
  [pointerField "authorizationCode" "a2a.AuthorizationCodeOAuthFlow"
     AuthorizationCodeOAuthFlow.jsonFields {} (·.authorizationCode)
     fun s v => { s with authorizationCode := v },
   pointerField "clientCredentials" "a2a.ClientCredentialsOAuthFlow"
     ClientCredentialsOAuthFlow.jsonFields {} (·.clientCredentials)
     fun s v => { s with clientCredentials := v },
   pointerField "implicit" "a2a.ImplicitOAuthFlow" ImplicitOAuthFlow.jsonFields {} (·.implicit)
     fun s v => { s with implicit := v },
   pointerField "password" "a2a.PasswordOAuthFlow" PasswordOAuthFlow.jsonFields {} (·.password)
     fun s v => { s with password := v }]

/-- `OAuth2SecurityScheme`'s fields. -/
def OAuth2SecurityScheme.jsonFields : Fields OAuth2SecurityScheme :=
  [stringField "description" true "string" (·.description) fun s v => { s with description := v },
   structField "flows" "a2a.OAuthFlows" OAuthFlows.jsonFields (·.flows)
     fun s v => { s with flows := v },
   stringField "oauth2MetadataUrl" true "string" (·.oauth2MetadataURL)
     fun s v => { s with oauth2MetadataURL := v }]

/-- `OpenIDConnectSecurityScheme`'s fields. -/
def OpenIDConnectSecurityScheme.jsonFields : Fields OpenIDConnectSecurityScheme :=
  [stringField "description" true "string" (·.description) fun s v => { s with description := v },
   stringField "openIdConnectUrl" false "string" (·.openIDConnectURL)
     fun s v => { s with openIDConnectURL := v }]

/-- `SecurityScheme`, the sealed union, holding a value of one of the five types. -/
inductive SecurityScheme
  | apiKey (scheme : APIKeySecurityScheme)
  | http (scheme : HTTPAuthSecurityScheme)
  | mutualTLS (scheme : MutualTLSSecurityScheme)
  | oauth2 (scheme : OAuth2SecurityScheme)
  | openIdConnect (scheme : OpenIDConnectSecurityScheme)
  deriving DecidableEq

/-- `NamedSecuritySchemes`; `none` is the nil map. -/
abbrev NamedSecuritySchemes := Option (StringMap SecurityScheme)

/-! ### Writing -/

section Marshal

variable {T : Type}

/-- The body of each `MarshalJSON`: `json.Marshal(withType{Type: tag, wrapped: wrapped(s)})`.
`withType`'s own `Type` field comes first; the fields of the embedded `wrapped` follow, promoted,
except one named `"type"`, which `Type` hides. `wrapped` has no methods, so this does not call
`MarshalJSON` again. -/
def marshalWithType (tag : String) (fields : Fields T) (s : T) : JsonValue :=
  .object (("type", .string tag) :: (members fields s).filter fun member => member.1 != "type")

/-- `APIKeySecurityScheme.MarshalJSON`. -/
def APIKeySecurityScheme.marshalJSON (s : APIKeySecurityScheme) : JsonValue :=
  marshalWithType "apiKey" APIKeySecurityScheme.jsonFields s

/-- `HTTPAuthSecurityScheme.MarshalJSON`. -/
def HTTPAuthSecurityScheme.marshalJSON (s : HTTPAuthSecurityScheme) : JsonValue :=
  marshalWithType "http" HTTPAuthSecurityScheme.jsonFields s

/-- `MutualTLSSecurityScheme.MarshalJSON`. -/
def MutualTLSSecurityScheme.marshalJSON (s : MutualTLSSecurityScheme) : JsonValue :=
  marshalWithType "mutualTLS" MutualTLSSecurityScheme.jsonFields s

/-- `OAuth2SecurityScheme.MarshalJSON`. -/
def OAuth2SecurityScheme.marshalJSON (s : OAuth2SecurityScheme) : JsonValue :=
  marshalWithType "oauth2" OAuth2SecurityScheme.jsonFields s

/-- `OpenIDConnectSecurityScheme.MarshalJSON`. -/
def OpenIDConnectSecurityScheme.marshalJSON (s : OpenIDConnectSecurityScheme) : JsonValue :=
  marshalWithType "openIdConnect" OpenIDConnectSecurityScheme.jsonFields s

/-- `json.Marshal` of a `SecurityScheme` interface value: the `MarshalJSON` of the type it
holds. -/
def SecurityScheme.marshalJSON : SecurityScheme → JsonValue
  | .apiKey s => s.marshalJSON
  | .http s => s.marshalJSON
  | .mutualTLS s => s.marshalJSON
  | .oauth2 s => s.marshalJSON
  | .openIdConnect s => s.marshalJSON

/-- `json.Marshal(s)` of a `NamedSecuritySchemes`: a map, with its entries by increasing name. -/
def NamedSecuritySchemes.marshal (s : NamedSecuritySchemes) : JsonValue :=
  encodeMap SecurityScheme.marshalJSON s

end Marshal

/-! ### Reading -/

/-- `typedScheme`, the struct `UnmarshalJSON` reads a scheme's tag into. -/
structure TypedScheme where
  type : String := ""

/-- `typedScheme`'s one field. -/
def TypedScheme.jsonFields : Fields TypedScheme :=
  [stringField "type" false "string" (·.type) fun s v => { s with type := v }]

/-- The `switch ts.Type` of `UnmarshalJSON`: decode the raw value into a zero value of the type
the tag names, or `fmt.Errorf("unknown security scheme type %s", ts.Type)`. -/
def decodeScheme (type : String) (raw : JsonValue) : Except DecodeError SecurityScheme :=
  match type with
  | "apiKey" => .apiKey <$>
      decodeStruct "a2a.APIKeySecurityScheme" APIKeySecurityScheme.jsonFields {} raw
  | "http" => .http <$>
      decodeStruct "a2a.HTTPAuthSecurityScheme" HTTPAuthSecurityScheme.jsonFields {} raw
  | "mutualTLS" => .mutualTLS <$>
      decodeStruct "a2a.MutualTLSSecurityScheme" MutualTLSSecurityScheme.jsonFields {} raw
  | "oauth2" => .oauth2 <$>
      decodeStruct "a2a.OAuth2SecurityScheme" OAuth2SecurityScheme.jsonFields {} raw
  | "openIdConnect" => .openIdConnect <$>
      decodeStruct "a2a.OpenIDConnectSecurityScheme" OpenIDConnectSecurityScheme.jsonFields {} raw
  | _ => .error (.errorf ("unknown security scheme type " ++ type))

/-- The body of the loop of `UnmarshalJSON` for one raw value: `json.Unmarshal(v, &ts)`, then the
`switch`. -/
def unmarshalScheme (raw : JsonValue) : Except DecodeError SecurityScheme := do
  let ts ← decodeStruct "a2a.typedScheme" TypedScheme.jsonFields {} raw
  decodeScheme ts.type raw

/-- `NamedSecuritySchemes.UnmarshalJSON(b)`: `json.Unmarshal(b, &schemes)` into
`map[SecuritySchemeName]json.RawMessage`, which keeps each value as it is; then, ranging over
`schemes` in the order `range` takes, each value decoded and stored into a new map `result`,
or the first error; then `*s = result`. -/
def NamedSecuritySchemes.unmarshalJSON (range : RangeOrder JsonValue) (b : JsonValue) :
    Except DecodeError NamedSecuritySchemes := do
  let schemes ← decodeMap "map[a2a.SecuritySchemeName]json.RawMessage" .null
    (fun _ raw => .ok raw) none b
  let result ← (range.order (schemes.getD ∅)).foldlM
    (fun result entry => (fun scheme => result.insert entry.1 scheme) <$> unmarshalScheme entry.2)
    (∅ : StringMap SecurityScheme)
  pure (some result)

end A2aGo.Protocol
