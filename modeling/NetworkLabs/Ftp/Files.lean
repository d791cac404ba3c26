/-
Module: NetworkLabs.Ftp.Files
Layer: Ftp
Purpose: The calls of `std::filesystem` and of the file streams that the two programs make, over a file
  system given by what its places hold. How a path finds its place, and which calls fail at a place, are
  data of the file system; the programs create no directories and no links, so neither changes. No other
  process and no other thread is taken to write to the same files meanwhile.
Trusted boundary: human-reviewed model of the C++ file library
Main exports: Path, Node, FileSystem, FileSystem.pathExists, FileSystem.isRegularFile,
  FileSystem.isDirectory, FileSystem.fileSize, FileSystem.readFile, FileSystem.create,
  FileSystem.write
-/
import NetworkLabs.Lib.Endian

namespace NetworkLabs.Ftp

open Lib

/-- A path, as the bytes of its name. -/
abbrev Path := List Byte

/-- The byte of `/`. -/
def slash : Byte := 0x2f

/-- What is at a place. -/
inductive Node where
  | absent
  | regular (content : List Byte)
  | directory
  | special
deriving DecidableEq, Repr

/-- The calls that may fail at a place whatever it holds. -/
inductive FileCall where
  | examine
  | openRead
  | read
  | openWrite
deriving DecidableEq, Repr

/-- A file system as one thread sees it that nobody else writes to. -/
structure FileSystem where
  /-- `std::filesystem::current_path()`. -/
  workingDir : Path
  /-- The place that a path leads to. -/
  place : Path → Path
  /-- What is at a place. -/
  node : Path → Node
  /-- The calls that do not fail at a place. -/
  allows : FileCall → Path → Bool
  /-- The number of bytes that can be written to a file at a place. -/
  room : Path → ℕ

namespace FileSystem

variable (files : FileSystem)

/-- `path / name`. -/
def join (path name : Path) : Path :=
  if name.head? = some slash then name
  else if path = [] ∨ path.getLast? = some slash then path ++ name
  else path ++ [slash] ++ name

/-- `std::filesystem::absolute`. -/
def absolute (path : Path) : Path :=
  if path.head? = some slash then path else join files.workingDir path

/-- What a path leads to. -/
def lookup (path : Path) : Node := files.node (files.place path)

/-- The file status of a path, or `none` if the query throws. -/
def status (path : Path) : Option Node :=
  if files.allows .examine (files.place path) then some (files.lookup path) else none

/-- `std::filesystem::exists`. -/
def pathExists (path : Path) : Option Bool :=
  (files.status path).map fun node => decide (node ≠ .absent)

/-- `std::filesystem::is_directory`. -/
def isDirectory (path : Path) : Option Bool :=
  (files.status path).map fun node => decide (node = .directory)

/-- `std::filesystem::is_regular_file`. -/
def isRegularFile (path : Path) : Option Bool :=
  (files.status path).map fun
    | .regular _ => true
    | _ => false

/-- `std::filesystem::file_size`, or `none` if it throws, as it does unless the path leads to a regular
    file. -/
def fileSize (path : Path) : Option ℕ :=
  (files.status path).bind fun
    | .regular content => some content.length
    | _ => none

/-- Opening a `std::ifstream`. -/
def canOpen (path : Path) : Bool :=
  decide (files.lookup path ≠ .absent) && files.allows .openRead (files.place path)

/-- `read` of `size` bytes from the stream just opened, or `none` if the stream is then in a failed
    state. -/
def readFile (path : Path) (size : ℕ) : Option (List Byte) :=
  if size = 0 then some []
  else
    match files.lookup path with
    | .regular content =>
        if files.allows .read (files.place path) && decide (size ≤ content.length) then
          some (content.take size)
        else none
    | _ => none

/-- The file system with other contents at a place. -/
def store (path : Path) (content : List Byte) : FileSystem :=
  { files with node := fun p => if p = files.place path then .regular content else files.node p }

/-- Opening a `std::ofstream`, which creates the file or empties it. What is written to a special file
    goes elsewhere. -/
def create (path : Path) : Option FileSystem :=
  if files.allows .openWrite (files.place path) then
    match files.lookup path with
    | .directory => none
    | .special => some files
    | _ => some (files.store path [])
  else none

/-- The bytes that one call of `write` has to bring in order to go past the buffer of the stream. -/
def streamBuffer : ℕ := 8191

/-- `write` to the stream just opened, and `close`: the file system afterwards, and whether the stream is
    good after `write`. What only goes to the buffer is written by `close`, which nobody tests, so that it
    can be lost without an error. -/
def write (path : Path) (content : List Byte) : FileSystem × Bool :=
  match files.lookup path with
  | .special => (files, true)
  | _ =>
      let room := files.room (files.place path)
      (files.store path (content.take room),
        decide (content.length < streamBuffer ∨ content.length ≤ room))

end FileSystem

end NetworkLabs.Ftp
