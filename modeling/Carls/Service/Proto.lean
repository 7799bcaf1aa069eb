import Mathlib.Data.List.AList

/-!
# Messages and Collaborators of the Knowledge Bank Service

The data `KnowledgeBankGrpcServiceImpl` reads and writes, and the objects it
calls without defining them.

The service never looks inside an embedding vector, a knowledge bank
configuration or an optimizer configuration: it moves them from a request to a
factory or a store and back. They are therefore type parameters (`V`, `K`,
`G`), and so are the states of the objects the factories build (`σ` for a
knowledge bank, `ω` for an optimizer). What the service does call on those
objects is collected in `Backend`, one field per method, so that every theorem
later on holds for every backend, every codec for the session handle and every
outcome of the two factories.

A protobuf `map<string, V>` is an `AList`: it has no repeated key, and its
`entries` list is one of the orders in which the service may iterate it.

## Main definitions

* `StatusCode`, `Status`: A `grpc::Status`.
* `ProtoMap`: A protobuf map from strings.
* `DynamicEmbeddingConfig`, `StartSessionRequest`: What a session handle encodes.
* `LookupRequest`, `LookupResponse`, `UpdateRequest`: The other RPC messages.
* `Backend`: The codec, the factories, the store and the optimizer.
-/

namespace Carls

/-- The codes the service returns. -/
inductive StatusCode where
  | ok
  | invalidArgument
  | internal
  deriving DecidableEq, Repr

/-- A `grpc::Status`: a code and a message. -/
structure Status where
  code : StatusCode
  message : String
  deriving DecidableEq, Repr

/-- `Status::OK`, with the empty message. -/
def Status.OK : Status := ⟨.ok, ""⟩

@[simp] theorem Status.OK_code : Status.OK.code = .ok := rfl

/-- A protobuf `map<string, V>`. -/
abbrev ProtoMap (V : Type) := AList fun _ : String => V

/-- The values of a protobuf map, in the order its keys are iterated. -/
def ProtoMap.values {V : Type} (m : ProtoMap V) : List V :=
  m.entries.map Sigma.snd

@[simp] theorem ProtoMap.length_values {V : Type} (m : ProtoMap V) :
    m.values.length = m.keys.length := by
  simp [ProtoMap.values, AList.keys, List.keys]

/-- The fields of a `DynamicEmbeddingConfig` the service reads. An absent
    `gradient_descent_config` is `none`. -/
structure DynamicEmbeddingConfig (K G : Type) where
  embeddingDimension : Int
  knowledgeBankConfig : K
  gradientDescentConfig : Option G

/-- A `StartSessionRequest`; its serialization is the session handle. -/
structure StartSessionRequest (K G : Type) where
  name : String
  config : DynamicEmbeddingConfig K G

/-- A `LookupRequest`: a handle, the keys in request order, and whether a miss
    creates the key. -/
structure LookupRequest where
  sessionHandle : String
  key : List String
  update : Bool

/-- A `LookupResponse`. -/
structure LookupResponse (V : Type) where
  embeddingTable : ProtoMap V

/-- An `UpdateRequest`: a handle, vectors to write, and gradients to apply. -/
structure UpdateRequest (V : Type) where
  sessionHandle : String
  values : ProtoMap V
  gradients : ProtoMap V

/-- Everything the service calls without defining it. A lookup result is
    `absl::variant<EmbeddingVectorProto, std::string>`, here `V ⊕ String`. A
    factory that returns `nullptr` returns `none`. `BatchLookup` only reads
    the store, `BatchLookupWithUpdate` and `BatchUpdate` return its new state,
    and `apply` returns the updated vectors with the error message it set. -/
structure Backend (K G σ ω V : Type) where
  parseFromString : String → StartSessionRequest K G
  serializeAsString : StartSessionRequest K G → String
  make : K → Int → Option σ
  create : Int → G → Option ω
  batchLookup : σ → List String → List (V ⊕ String)
  batchLookupWithUpdate : σ → List String → List (V ⊕ String) × σ
  batchUpdate : σ → List String → List V → σ
  apply : ω → List V → List V → List V × String

/-- The configuration a session handle encodes, read back as lines 185–186
    do. -/
def Backend.sessionConfig {K G σ ω V : Type} (b : Backend K G σ ω V) (h : String) :
    DynamicEmbeddingConfig K G :=
  (b.parseFromString h).config

end Carls
