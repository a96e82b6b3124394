import StaticSite.Files.Path
import StaticSite.Number.Digits

/-!
# Fingerprints

A fingerprinted file has a hash of its bytes between the stem and the extension of its name, so that
a file with other bytes has another name. The hash is the 64-bit FNV-1a hash, shortened to eight
digits.
-/

namespace StaticSite

def fnv1a (bytes : List UInt8) : UInt64 :=
  bytes.foldl (fun h b => (h ^^^ b.toUInt64) * 0x100000001B3) 0xCBF29CE484222325

/-- The first eight of the sixteen hexadecimal digits of the hash of bytes. -/
def fingerprint (bytes : List UInt8) : String :=
  String.ofList ((Number.padded 16 16 (fnv1a bytes).toNat).toList.take 8)

def defaultExtensions : List String := ["css", "js", "png", "jpg", "jpeg", "gif", "svg", "webp"]

/-- Which files are fingerprinted: none, or those whose extension is listed. -/
structure Fingerprinting where
  enabled : Bool
  extensions : List String := defaultExtensions

def Fingerprinting.appliesTo (f : Fingerprinting) (name : String) : Bool :=
  f.enabled && match (Path.splitExtension name).2 with
    | none => false
    | some extension => decide (extension ∈ f.extensions)

def Fingerprinting.deployedName (f : Fingerprinting) (name : String) (bytes : List UInt8) :
    String :=
  if f.appliesTo name then
    let (stem, extension) := Path.splitExtension name
    stem ++ "." ++ fingerprint bytes ++ "." ++ extension.getD ""
  else name

end StaticSite
