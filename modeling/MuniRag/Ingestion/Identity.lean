import MuniRag.Text
import MuniRag.Lib.Results

/-!
# Identity of an ingestion job

`jobIdentity.ts`: what an enqueue request is checked for, the canonical text of
its pipeline configuration, and the three digests under which the job table
deduplicates it (the idempotency key, the request, and the work).
-/

namespace Ingestion

open Results

/-- The fields of `IngestionJobError` and `ArtifactAcceptanceError`. -/
structure ServiceError where
  code : String
  message : String
  retryable : Bool
  deriving DecidableEq, Repr

/-- Why a call throws. -/
inductive Refusal
  | job (error : ServiceError)
  | acceptance (error : ServiceError)
  | vectors (code message : String)
  | database (message : String)
  | failure (message : String)
  deriving DecidableEq, Repr

def jobError (code message : String) : Refusal :=
  .job { code, message, retryable := false }

def acceptanceError (code message : String) : Refusal :=
  .acceptance { code, message, retryable := false }

/-- A SHA-256 digest, as the lower-case hexadecimal text that `digest("hex")`
and `encode(…, 'hex')` give. -/
abbrev Sha256 := JsString

/-- What the platform computes: the digest of a text in UTF-8,
`String.prototype.toLowerCase`, and PostgreSQL's class `[[:cntrl:]]`. -/
structure Platform where
  sha256 : JsString → Sha256
  toLowerCase : JsString → JsString
  hasControl : JsString → Bool

/-! ## The patterns of the texts -/

def isAlphanumeric (u : UInt16) : Bool := isLowerLetter u || isUpperLetter u || isDecimalDigit u

/-- The texts of `^[head][tail]{0,n}$`. -/
def headTail (head tail : UInt16 → Bool) (n : Nat) : JsString → Bool
  | [] => false
  | u :: rest => head u && rest.all tail && decide (rest.length ≤ n)

/-- `SHA256_HEX_PATTERN`. -/
def isSha256Hex (text : JsString) : Bool :=
  decide (text.length = 64) && text.all fun u => isDecimalDigit u || (0x61 ≤ u && u ≤ 0x66)

/-- The marks `.`, `_`, `:`, `/` and `-`. -/
def isComponentMark (u : UInt16) : Bool := isKeyMark u || u == 0x2f

/-- A letter or a digit, then at most `n` letters, digits and component marks. -/
def isComponent (n : Nat) : JsString → Bool :=
  headTail isAlphanumeric (fun u => isAlphanumeric u || isComponentMark u) n

/-- The characters of `[\x20-\x7e]`. -/
def isPrintable (u : UInt16) : Bool := 0x20 ≤ u && u ≤ 0x7e

/-- The characters of `[\x00-\x1f\x7f]`. -/
def isControl (u : UInt16) : Bool := u ≤ 0x1f || u == 0x7f

/-- `IDEMPOTENCY_KEY_PATTERN`. -/
def isIdempotencyKey (text : JsString) : Bool :=
  decide (8 ≤ text.length ∧ text.length ≤ 256) && text.all isPrintable

/-! ## The pipeline configuration -/

/-- `IngestionPipelineConfigV1`.  A number that is no integer is refused like
an integer out of bounds. -/
structure PipelineConfig where
  contractVersion : JsString
  extractorName : JsString
  extractorVersion : JsString
  chunkPlannerName : JsString
  maxChars : Int
  overlapChars : Int
  embeddingProvider : JsString
  embeddingModel : JsString
  embeddingDimension : Int
  deriving DecidableEq, Repr

def defaultVectorDimension : Int := 1536

/-- A JSON string with nothing to escape. -/
def jsonText (text : JsString) : JsString := [0x22] ++ text ++ [0x22]

/-- `JSON.stringify` of an object, from the texts of its values. -/
def jsonObject (fields : List (String × JsString)) : JsString :=
  [0x7b] ++ List.intercalate [0x2c]
    (fields.map fun field => jsonText (js field.1) ++ [0x3a] ++ field.2) ++ [0x7d]

def jsonNumber (n : Int) : JsString := js (toString n)

/-- The JSON text of a configuration that passes the checks. -/
def PipelineConfig.canonicalText (config : PipelineConfig) : JsString :=
  jsonObject [
    ("contract_version", jsonText (js "v1")),
    ("extractor", jsonObject [
      ("name", jsonText config.extractorName),
      ("version", jsonText config.extractorVersion)]),
    ("chunk_planner", jsonObject [
      ("name", jsonText (js "section_text_v1")),
      ("max_chars", jsonNumber config.maxChars),
      ("overlap_chars", jsonNumber config.overlapChars)]),
    ("embedding", jsonObject [
      ("provider", jsonText config.embeddingProvider),
      ("model", jsonText config.embeddingModel),
      ("dimension", jsonNumber config.embeddingDimension)])]

def canonicalPipelineConfig (config : PipelineConfig) : Except Refusal JsString := do
  require (config.contractVersion = js "v1" ∧ config.chunkPlannerName = js "section_text_v1")
    (jobError "ingestion_pipeline_config_invalid" "Unsupported ingestion pipeline contract.")
  require (∀ component ∈ [config.extractorName, config.extractorVersion, config.embeddingProvider,
      config.embeddingModel], isComponent 127 component = true)
    (jobError "ingestion_pipeline_config_invalid" "Pipeline component identifier is invalid.")
  require (32 ≤ config.maxChars ∧ config.maxChars ≤ 1000000 ∧ 0 ≤ config.overlapChars ∧
      config.overlapChars ≤ config.maxChars / 2)
    (jobError "ingestion_pipeline_config_invalid" "Chunk planner bounds are invalid.")
  require (config.embeddingDimension = defaultVectorDimension)
    (jobError "ingestion_pipeline_config_invalid"
      "The current vector schema requires dimension 1536.")
  pure config.canonicalText

/-! ## The identity of a request -/

/-- `EnqueueIngestionJobInput`. -/
structure EnqueueInput where
  tenantId : JsString
  principalId : JsString
  documentVersionId : JsString
  artifactSha256 : JsString
  idempotencyKey : JsString
  pipelineConfig : PipelineConfig
  maxAttempts : Option Int
  deriving DecidableEq, Repr

/-- `IngestionJobIdentity`, with the UUIDs of the request that it was built
from. -/
structure JobIdentity where
  tenantId : Uuid
  principalId : Uuid
  documentVersionId : Uuid
  idempotencyKeySha256 : Sha256
  requestSha256 : Sha256
  artifactSha256 : Sha256
  pipelineConfigSha256 : Sha256
  workSha256 : Sha256
  canonicalPipelineConfig : JsString
  maxAttempts : Nat
  deriving DecidableEq, Repr

def defaultMaxAttempts : Int := 3

def maxIngestionAttempts : Int := 10

def jobType : String := "document_vector_index_v1"

/-- The text whose digest identifies the work. -/
def workText (tenantId documentVersionId : Uuid) (artifactSha256 : JsString)
    (pipelineConfigSha256 : Sha256) : JsString :=
  jsonObject [
    ("contract_version", jsonText (js "v1")),
    ("job_type", jsonText (js jobType)),
    ("tenant_id", jsonText (uuidText tenantId)),
    ("document_version_id", jsonText (uuidText documentVersionId)),
    ("artifact_sha256", jsonText artifactSha256),
    ("pipeline_config_sha256", jsonText pipelineConfigSha256)]

/-- The text whose digest identifies the request. -/
def requestText (principalId : Uuid) (workSha256 : Sha256) (maxAttempts : Int) : JsString :=
  jsonObject [
    ("contract_version", jsonText (js "v1")),
    ("principal_id", jsonText (uuidText principalId)),
    ("work_sha256", jsonText workSha256),
    ("max_attempts", jsonNumber maxAttempts)]

def buildIngestionJobIdentity (platform : Platform) (input : EnqueueInput) :
    Except Refusal JobIdentity := do
  let scopeInvalid := jobError "ingestion_scope_invalid"
    "Ingestion job scope requires canonical UUIDs."
  let tenantId ← orRefuse (uuidValue input.tenantId) scopeInvalid
  let principalId ← orRefuse (uuidValue input.principalId) scopeInvalid
  let documentVersionId ← orRefuse (uuidValue input.documentVersionId) scopeInvalid
  require (isSha256Hex input.artifactSha256 = true)
    (jobError "ingestion_artifact_digest_invalid"
      "Artifact identity must be lowercase SHA-256 hex.")
  require (isIdempotencyKey input.idempotencyKey = true)
    (jobError "ingestion_idempotency_key_invalid"
      "Idempotency key must contain 8 to 256 printable ASCII characters.")
  let maxAttempts := input.maxAttempts.getD defaultMaxAttempts
  require (1 ≤ maxAttempts ∧ maxAttempts ≤ maxIngestionAttempts)
    (jobError "ingestion_attempt_policy_invalid"
      "maxAttempts must be an integer between 1 and 10.")
  let pipelineConfig ← canonicalPipelineConfig input.pipelineConfig
  let pipelineConfigSha256 := platform.sha256 pipelineConfig
  let workSha256 := platform.sha256
    (workText tenantId documentVersionId input.artifactSha256 pipelineConfigSha256)
  let requestSha256 := platform.sha256 (requestText principalId workSha256 maxAttempts)
  pure {
    tenantId, principalId, documentVersionId
    idempotencyKeySha256 := platform.sha256 input.idempotencyKey
    requestSha256, artifactSha256 := input.artifactSha256, pipelineConfigSha256, workSha256
    canonicalPipelineConfig := pipelineConfig
    maxAttempts := maxAttempts.toNat }

/-- Every job that is enqueued may be attempted at least once. -/
theorem maxAttempts_pos {platform : Platform} {input : EnqueueInput} {identity : JobIdentity}
    (h : buildIngestionJobIdentity platform input = .ok identity) : 0 < identity.maxAttempts := by
  simp only [buildIngestionJobIdentity, then_ok, orRefuse_ok, require_ok, return_ok] at h
  obtain ⟨_, _, _, _, _, _, _, _, _, _, _, hbounds, _, _, rfl⟩ := h
  have hpos : 1 ≤ input.maxAttempts.getD defaultMaxAttempts := hbounds.1
  show 0 < (input.maxAttempts.getD defaultMaxAttempts).toNat
  omega

/-! ## The work of a request -/

theorem uuidText_length (id : Uuid) : (uuidText id).length = 36 := by
  simp [uuidText, uuidDashed]

theorem uuidText_inj {a b : Uuid} (ha : a < 16 ^ 32) (hb : b < 16 ^ 32)
    (h : uuidText a = uuidText b) : a = b := by
  have hvalue : some a = some b := by
    rw [← uuidValue_uuidText ha, ← uuidValue_uuidText hb, h]
  exact Option.some.inj hvalue

/-- The text of a work determines the version, the artifact and the pipeline. -/
theorem workText_inj {tenant tenant' version version' : Uuid} {artifact artifact' : JsString}
    {pipeline pipeline' : Sha256} (hversion : version < 16 ^ 32) (hversion' : version' < 16 ^ 32)
    (hartifact : artifact.length = artifact'.length)
    (h : workText tenant version artifact pipeline = workText tenant' version' artifact' pipeline') :
    version = version' ∧ artifact = artifact' ∧ pipeline = pipeline' := by
  simp only [workText, jsonObject, jsonText, List.map_cons, List.map_nil, List.intercalate,
    List.intersperse, List.flatten_cons, List.flatten_nil, List.append_assoc,
    List.append_cancel_left_eq] at h
  obtain ⟨-, h⟩ := List.append_inj h (by simp [uuidText_length])
  simp only [List.append_cancel_left_eq] at h
  obtain ⟨hversions, h⟩ := List.append_inj h (by simp [uuidText_length])
  simp only [List.append_cancel_left_eq] at h
  obtain ⟨hartifacts, h⟩ := List.append_inj h hartifact
  simp only [List.append_cancel_left_eq, List.append_cancel_right_eq] at h
  exact ⟨uuidText_inj hversion hversion' hversions, hartifacts, h⟩

/-- What the digest of the work is the digest of. -/
theorem workSha256_build {platform : Platform} {input : EnqueueInput} {identity : JobIdentity}
    (h : buildIngestionJobIdentity platform input = .ok identity) :
    identity.workSha256 = platform.sha256 (workText identity.tenantId identity.documentVersionId
        identity.artifactSha256 identity.pipelineConfigSha256) ∧
      identity.documentVersionId < 16 ^ 32 ∧ identity.artifactSha256.length = 64 := by
  simp only [buildIngestionJobIdentity, then_ok, orRefuse_ok, require_ok, return_ok] at h
  obtain ⟨_, _, _, _, _, hversion, _, hartifact, _, _, _, _, _, _, rfl⟩ := h
  rw [isSha256Hex, Bool.and_eq_true, decide_eq_true_eq] at hartifact
  exact ⟨rfl, uuidValue_lt hversion, hartifact.1⟩

end Ingestion
