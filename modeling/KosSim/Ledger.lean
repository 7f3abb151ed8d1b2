import Mathlib.Data.List.Sort
import KosSim.Library.Dict
import KosSim.Library.Hex
import KosSim.Library.MerkleTree
import KosSim.Library.Sha256

/-!
ledger.rs: the documents of LedgerForge, their paths and the Merkle root over them. The
hash function is a parameter; `Sha256.sha256` is the one the service is built with.
-/

namespace KosSim.Ledger
open Library

structure Doc where
  id : String
  path : String
  className : String
  owner : String
  body : String
  isPublic : Bool
  snapshot : String
  deriving DecidableEq

/-! Paths. -/

def hexValue (byte : UInt8) : Option Nat :=
  if 48 ≤ byte.toNat ∧ byte.toNat ≤ 57 then some (byte.toNat - 48)
  else if 65 ≤ byte.toNat ∧ byte.toNat ≤ 70 then some (byte.toNat - 55)
  else if 97 ≤ byte.toNat ∧ byte.toNat ≤ 102 then some (byte.toNat - 87)
  else none

/-- decode_binary of the urlencoding crate, as it is documented: every %XX with two hex digits is
one byte, and a percent sign without them stands for itself. -/
def decodeBinary : List UInt8 → List UInt8
  | 37 :: high :: low :: rest =>
      match hexValue high, hexValue low with
      | some first, some second => UInt8.ofNat (first * 16 + second) :: decodeBinary rest
      | _, _ => 37 :: decodeBinary (high :: low :: rest)
  | byte :: rest => byte :: decodeBinary rest
  | [] => []

/-- The crate's decode is an error where the bytes are no UTF-8, and the raw text is taken then. -/
def urlDecode (raw : String) : String := (String.fromUTF8? (decodeBinary (utf8 raw)).toByteArray).getD raw

/-- The parts so far, the last one first. -/
def pushPart (parts : List (List Char)) (part : List Char) : List (List Char) :=
  if part = [] ∨ part = ['.'] then parts else if part = ['.', '.'] then parts.tail else part :: parts

def normalizePath (raw : String) : String :=
  let parts := (((urlDecode raw).toList.splitOn '/').foldl pushPart []).reverse
  String.ofList ('/' :: List.intercalate ['/'] parts)

example : normalizePath "/public/%2e%2e/vault/abcdef" = "/vault/abcdef" := by decide +kernel

example : normalizePath "/a/b/../../c" = "/c" := by decide +kernel

/-- trim_matches('/') -/
def trimSlashes (text : String) : String :=
  String.ofList (((text.toList.dropWhile (· = '/')).reverse.dropWhile (· = '/')).reverse)

/-! The Merkle root. -/

section Root
variable (sha : List UInt8 → List UInt8)

def leafBytes (id body : String) : List UInt8 := utf8 id ++ 0 :: utf8 body

def nodeBytes (pair : String × String) : List UInt8 := utf8 pair.1 ++ utf8 pair.2

def leafHash (id body : String) : String := hexEncode (sha (leafBytes id body))

def nodeHash (pair : String × String) : String := hexEncode (sha (nodeBytes pair))

def sortedLeaves (pairs : List (String × String)) : List String :=
  (pairs.map fun pair => leafHash sha pair.1 pair.2).insertionSort (· ≤ ·)

def merkleRootPairs (pairs : List (String × String)) : String :=
  rootOf (nodeHash sha) (String.ofList (List.replicate 64 '0')) (sortedLeaves sha pairs)

def docPairs (docs : Dict String Doc) : List (String × String) :=
  docs.entries.map fun entry => (entry.2.id, entry.2.body)

def merkleRoot (docs : Dict String Doc) : String := merkleRootPairs sha (docPairs docs)

end Root

end KosSim.Ledger
