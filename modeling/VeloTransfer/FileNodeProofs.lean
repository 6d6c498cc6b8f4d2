import Mathlib

/-! # Files with an identity

    A file is its bytes under an identity: its inode and the times of its last
    change.  Writes and cuts keep the inode; a fault lets a prefix of a write
    through. -/

namespace FileNodes

/-- What `identity(info)` keeps of a stat result. -/
structure Info where
  device : Nat
  inode : Nat
  size : Nat
  mtimeNs : Nat
  ctimeNs : Nat
deriving Repr, DecidableEq

structure FileNode where
  inode : Nat
  bytes : List UInt8
  mtimeNs : Nat
  ctimeNs : Nat
deriving Repr, DecidableEq

def FileNode.info (device : Nat) (f : FileNode) : Info :=
  { device := device, inode := f.inode, size := f.bytes.length
    mtimeNs := f.mtimeNs, ctimeNs := f.ctimeNs }

/-- A new empty file, with the next inode. -/
def newFile (inode stamp : Nat) : FileNode :=
  { inode := inode, bytes := [], mtimeNs := stamp, ctimeNs := stamp }

/-- Write at a position of a file, over what is there. -/
def FileNode.writeAt (f : FileNode) (position : Nat) (data : List UInt8) (stamp : Nat) : FileNode :=
  { f with
    bytes := f.bytes.take position ++ data ++ f.bytes.drop (position + data.length)
    mtimeNs := stamp, ctimeNs := stamp }

def FileNode.truncate (f : FileNode) (size stamp : Nat) : FileNode :=
  { f with bytes := f.bytes.take size, mtimeNs := stamp, ctimeNs := stamp }

/-- The largest file that the file system holds. -/
def maxFileSize : Nat := 2 ^ 63 - 1

/-- The part of a write that a fault lets through. -/
def written (progress : Option Nat) (data : List UInt8) : List UInt8 :=
  match progress with
  | none => data
  | some n => data.take n

/-- Writing at the end appends. -/
theorem writeAt_end (f : FileNode) (data : List UInt8) (stamp : Nat) :
    (f.writeAt f.bytes.length data stamp).bytes = f.bytes ++ data := by
  unfold FileNode.writeAt
  simp

theorem prefix_take {α : Type} {as bs : List α} (hp : as <+: bs) : bs.take as.length = as := by
  obtain ⟨tail, rfl⟩ := hp
  exact List.take_left

end FileNodes
