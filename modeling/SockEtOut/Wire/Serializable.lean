import SockEtOut.Wire.InPlace

/-!
# Everything that is serialized

The nineteen classes behind `Serializable`, each with `serialize` and `size` as the
two builds compile them. A UUID and a header are the same bytes in both. Of the
others all but `Channel` have a `size` for each build; a channel's counts the custom
build's bytes in either. `none` is the exception that `to_json` throws.
-/

namespace SockEtOut

open Lib

namespace Object

/-- `serialize` of the custom build. -/
def serializeCustom (e : Endian) : Object → List UInt8 → List UInt8
  | .user u => u.serialize
  | .message m => m.serialize e
  | .channel c => c.serialize
  | .request m => m.serialize
  | .response r => r.serialize e

/-- `size` of the custom build. -/
def sizeCustom : Object → Nat
  | .user u => u.size
  | .message m => m.size
  | .channel c => c.size
  | .request m => m.size
  | .response r => r.size

/-- `size` of the JSON build: `to_json().size()`, but in `Channel`. -/
def sizeJson [Nlohmann] : Object → Option Nat
  | .channel c => some c.size
  | .user u => u.toJson.map List.length
  | .message m => m.toJson.map List.length
  | .request m => m.toJson.map List.length
  | .response r => r.toJson.map List.length

end Object

/-- An object of any class of the program that can be serialized. -/
inductive Serializable where
  | uuid (u : UUID)
  | header (h : Header)
  | object (o : Object)

namespace Serializable

variable [Nlohmann]

def serialize (build : Build) (e : Endian) (s : Serializable) (buf : List UInt8) :
    Option (List UInt8) :=
  match s with
  | .uuid u => some (u.serialize buf)
  | .header h => some (h.serialize buf)
  | .object o =>
      match build with
      | .custom => some (o.serializeCustom e buf)
      | .json => o.toJson.map fun msg => buf ++ msg

def size (build : Build) : Serializable → Option Nat
  | .uuid u => some u.value.length
  | .header _ => some Header.size
  | .object o =>
      match build with
      | .custom => some o.sizeCustom
      | .json => o.sizeJson

end Serializable

/-- The bytes that are appended, in the custom build. -/
theorem Object.serializeCustom_append (e : Endian) (o : Object) (buf : List UInt8) :
    o.serializeCustom e buf = buf ++ o.serializeCustom e [] := by
  cases o with
  | user u => exact u.serialize_append buf
  | message m => exact m.serialize_append e buf
  | channel c =>
      simp only [serializeCustom]
      rw [Channel.serialize_eq, Channel.serialize_eq c [], List.nil_append]
  | request m => exact m.serialize_append buf
  | response r => exact r.serialize_append e buf

theorem Object.length_serializeCustom (e : Endian) (o : Object) :
    (o.serializeCustom e []).length = o.sizeCustom := by
  cases o with
  | user u => exact u.length_serialize
  | message m => exact m.length_serialize e
  | channel c => exact c.length_serialize
  | request m => exact m.length_serialize
  | response r => exact r.length_serialize e

end SockEtOut
