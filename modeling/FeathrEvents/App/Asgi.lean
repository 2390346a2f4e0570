/-
Module: FeathrEvents.App.Asgi
Purpose: The requests that the middlewares see: the scope of an ASGI application and its headers as a
  dictionary of decoded texts.
Trusted boundary: translation by hand of the header comprehension of `client_of` and
  `AgentLoggerMiddleware`.  `str.lower` is a parameter; `bytes.decode` is Lean's strict UTF-8 decoding.
Main exports: ScopeType, Scope, Fault, decode, decodeHeaders, startsWith, isSpace, strip
-/
import FeathrEvents.Lib.OrderedDict
import Mathlib.Data.String.Basic

namespace FeathrEvents

open Collections (OrderedDict)

/-- `scope["type"]`. -/
inductive ScopeType where
  | http
  | websocket
  | lifespan
deriving DecidableEq

/-- An ASGI scope; a `none` is a key that is not there, or a `None`. -/
structure Scope where
  type : ScopeType
  method : Option String := none
  path : Option String := none
  headers : Option (List (ByteArray × ByteArray)) := none
  queryString : Option ByteArray := none
  client : Option (String × ℕ) := none

/-- What the middlewares can raise themselves.  The `valueError` is that of a path with an embedded
null byte. -/
inductive Fault where
  | unicodeDecodeError
  | valueError
deriving DecidableEq

/-- `bytes.decode()`. -/
def decode (bytes : ByteArray) : Except Fault String :=
  match String.fromUTF8? bytes with
  | some text => .ok text
  | none => .error .unicodeDecodeError

/-- `{k.decode().lower(): v.decode() for k, v in headers}`: the last header of a name wins. -/
def decodeHeaders (lower : String → String) (headers : List (ByteArray × ByteArray)) :
    Except Fault (OrderedDict String String) :=
  headers.foldlM
    (fun dict header => do
      let name ← decode header.1
      let value ← decode header.2
      return dict.set (lower name) value)
    .empty

/-- `text.startswith(start)`. -/
def startsWith (text start : String) : Bool := start.toList.isPrefixOf text.toList

/-- The whitespace of `str.strip()`. -/
def isSpace (char : Char) : Bool :=
  char.toNat ∈ [9, 10, 11, 12, 13, 28, 29, 30, 31, 32, 133, 160, 5760, 8232, 8233, 8239, 8287, 12288]
    || (8192 ≤ char.toNat && char.toNat ≤ 8202)

/-- `str.strip()`. -/
def strip (text : String) : String :=
  String.ofList (((text.toList.dropWhile isSpace).reverse.dropWhile isSpace).reverse)

end FeathrEvents
