import DriveServe.Corpus
import DriveServe.Share

set_option autoImplicit false

/-! What the handlers are given beside the registry: the fixed parts of the host,
the codecs of other crates, and the answers of the outside world to one request. -/

namespace DriveServe

structure Manifest where
  chunkSize : Nat
  totalSize : Nat
  chunks : List String
  deriving DecidableEq, Repr

structure Codec (σ : Type) where
  encodeState : σ → Except String Bytes
  decodeManifest : Bytes → Except String Manifest
  decodeReq : Bytes → Except String DriveReq
  encodeBeacon : Beacon → Except String Bytes
  parseJson : Bytes → Except String Json
  encodeJson : Json → Except String Bytes
  base64Encode : Bytes → String
  base64Decode : String → Option Bytes
  decodeExtracted : Json → Option Extracted

/-- The host: its key and verifier, the drive implementation and the codecs. -/
structure Host (δ σ ε : Type) where
  server : DriveServer
  core : SyncedDrive δ σ ε
  codec : Codec σ

/-- What the node, its peers and the clock answer while one request is served. -/
structure World (ε : Type) where
  nowSecs : Nat
  nowMs : Nat
  revoked : Except String (List (String × Nat))
  putObject : Bytes → Except String String
  getBlob : String → Except String Bytes
  getObject : String → Except String Bytes
  findService : String → Except String (List String)
  request : (peer topic : String) → Bytes → Except String Bytes
  publish : (topic : String) → Bytes → Except String Unit
  env : ε

/-- A world whose object store is content-addressed. -/
structure AddressedWorld (ε : Type) (cidOf : Bytes → String) extends World ε where
  addressed : ∀ bytes cid, putObject bytes = .ok cid → cid = cidOf bytes

end DriveServe
