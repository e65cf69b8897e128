import HopToDesk.Kit.Base64
import HopToDesk.Kit.FileName
import HopToDesk.Kit.Unicode

/-!
# The file of a peer

`PeerConfig::path` and `PeerConfig::peers` of `libs/hbb_common/src/config.rs`: a peer is kept in a
file that is named after its id, and known by that name again. An id with a character that a file
name may not have is named by its base 64.

A path is text, and the same as another where its components are. The directory of the configuration
is given; sodiumoxide's base 64 is a parameter.
-/

set_option autoImplicit false

namespace HopToDesk.Config

open Kit Text UnixPath

/-- `Config::with_extension`. -/
def withExtension (path : PathStr) : PathStr :=
  match extension path with
  | some ext => UnixPath.withExtension path (ext ++ ".toml".toList)
  | none => UnixPath.withExtension path "toml".toList

namespace PeerConfig

def PEERS : PathStr := "peers".toList

/-- What `forbidden_paths` looks for. -/
def forbidden : List Char := ['<', '>', ':', '/', '\\', '|', '?', '*']

def isForbidden (id : Text) : Bool := id.any (· ∈ forbidden)

def encodedPrefix : Text := "base64_".toList

section

variable (base64 : Base64.Standard)

/-- `id_encoded`. -/
def idEncoded (id : Text) : PathStr :=
  if isForbidden id then encodedPrefix ++ base64.encode (utf8 id) else id

-- the directory of the configuration
variable (dir : PathStr)

/-- `path`. -/
def path (id : Text) : PathStr :=
  withExtension (join dir (join PEERS (idEncoded base64 id)))

/-- The files in the directory that `peers` looks at. -/
def isPeerFile (p : PathStr) : Bool := extension p = some "toml".toList

/-- The id that `peers` derives from a file. -/
def idOfFile (p : PathStr) : Text :=
  let id := (fileStem p).getD []
  if encodedPrefix <+: id ∧ (utf8 id).length ≠ 7 then
    fromUtf8Lossy ((base64.decode (id.drop 7)).getD [])
  else id

/-- The peer has a file in the directory of the peers, which `peers` looks at and takes for that of
the peer. -/
structure Named (id : Text) : Prop where
  inside : parent (parse (path base64 dir id)) = some (parse (join dir PEERS))
  listed : isPeerFile (path base64 dir id) = true
  derived : idOfFile base64 (path base64 dir id) = id

/-- The id is a name that does not read like an encoded id, or one whose base 64 has no slash. -/
def Nameable (id : Text) : Prop :=
  if isForbidden id then '/' ∉ base64.encode (utf8 id)
  else id ∉ [[], ['.'], ['.', '.']] ∧ (encodedPrefix <+: id → id = encodedPrefix)

/-- The plain id reads like the other, which is encoded; a slash at the end does not count. -/
def Shadows (id id' : Text) : Prop :=
  isForbidden id = false ∧ isForbidden id' = true ∧ trimSlash (idEncoded base64 id') = id

/-- The ids that have the same file. -/
def Collide (id id' : Text) : Prop :=
  id ≠ id' ∧
    (id ∈ [[], ['.']] ∧ id' ∈ [[], ['.']] ∨ Shadows base64 id id' ∨ Shadows base64 id' id)

/-- Each of the peers is named, and no two have the same file. -/
structure OwnFiles (ids : Set Text) : Prop where
  named : ∀ id ∈ ids, Named base64 dir id
  apart : Set.InjOn (fun id => parse (path base64 dir id)) ids

end

end PeerConfig

end HopToDesk.Config
