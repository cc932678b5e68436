import RpcInGo.Lib.ByteStream
import RpcInGo.Protocol.Header

/-! The codec and compressor tables of `pkg/codec` after the package's `init`
functions: `codec.go` and `compress.go`. JSON and Protobuf are registered as
codecs, no compression and gzip as compressors. -/

namespace RpcInGo.Codec.Registry
open Lib.ByteStream Protocol.Message Protocol.Header

/-- What is sent in a frame. -/
inductive Body (P : Type)
  | request (req : Request P)
  | response (resp : Response P)

variable {P : Type}

def Body.msgType : Body P → MessageType
  | .request _ => msgTypeRequest
  | .response _ => msgTypeResponse

def Body.id : Body P → UInt64
  | .request req => req.id
  | .response resp => resp.id

/-- `codec.Codec` on the two types of messages. -/
structure BodyCodec (P : Type) where
  encode : Body P → Except GoError Bytes
  decodeRequest : Bytes → Except GoError (Request P)
  decodeResponse : Bytes → Except GoError (Response P)

structure Compressor where
  compress : Bytes → Except GoError Bytes
  decompress : Bytes → Except GoError Bytes

def noneCompressor : Compressor := ⟨.ok, .ok⟩

/-- The registered implementations; the one without compression is fixed. -/
structure Tables (P : Type) where
  json : BodyCodec P
  protobuf : BodyCodec P
  gzip : Compressor

namespace Tables
variable (t : Tables P)

def get (typ : CodecType) : Option (BodyCodec P) :=
  if typ = codecTypeJSON then some t.json
  else if typ = codecTypeProtobuf then some t.protobuf
  else none

def getOrDefault (typ : CodecType) : BodyCodec P :=
  match t.get typ with
  | some codec => codec
  | none => t.json

def getCompressor (typ : CompressType) : Option Compressor :=
  if typ = compressTypeNone then some noneCompressor
  else if typ = compressTypeGzip then some t.gzip
  else none

def getCompressorOrNone (typ : CompressType) : Compressor :=
  match t.getCompressor typ with
  | some compressor => compressor
  | none => noneCompressor

end Tables

/-- Decompressing undoes compressing. -/
def Compressor.Lossless (c : Compressor) : Prop :=
  ∀ data packed, c.compress data = .ok packed → c.decompress packed = .ok data

theorem noneCompressor_lossless : noneCompressor.Lossless := by
  intro data packed hc
  cases hc
  rfl

theorem getCompressorOrNone_lossless {t : Tables P} (h : t.gzip.Lossless) (typ : CompressType) :
    (t.getCompressorOrNone typ).Lossless := by
  unfold Tables.getCompressorOrNone Tables.getCompressor
  split
  · rename_i c hc
    split at hc
    · cases hc
      exact noneCompressor_lossless
    · split at hc <;> cases hc
      exact h
  · exact noneCompressor_lossless

end RpcInGo.Codec.Registry
