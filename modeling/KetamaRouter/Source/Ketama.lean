import KetamaRouter.Source.Md5
import KetamaRouter.Source.Pabuf

/-!
# The hash ring

`ketama.c`.  Counters and indices have the width they have in the source and wrap
around; an array index that leaves what was written is a fault.
-/

namespace KetamaRouter

/-- `mcs` -/
structure Mcs where
  point : UInt32
  ordinal : Int32
  deriving DecidableEq, Repr

/-- `serverinfo`; `addr` is the string in the array of that name. -/
structure ServerInfo where
  addr : Bytes
  memory : UInt64
  deriving DecidableEq, Repr

structure Ketama where
  numpoints : Int32
  numservers : UInt32
  maxservers : UInt32
  memory : UInt64
  continuum : Option (List Mcs)
  servers : Option (List ServerInfo)
  deriving DecidableEq, Repr

def ketamaCompare (a b : Mcs) : ℤ :=
  if a.point < b.point then -1 else if a.point > b.point then 1 else 0

/-- What the ring is built on: the digest, the number of groups of points the
floating-point expression of `Ketama_create_continuum` grants a weight out of a
total among so many servers, and the library's `qsort`. -/
structure Platform where
  md5 : Bytes → Fin 16 → UInt8
  share : UInt64 → UInt64 → UInt32 → UInt32
  qsort : (Mcs → Mcs → ℤ) → List Mcs → List Mcs
  qsort_perm : ∀ points, (qsort ketamaCompare points).Perm points
  qsort_ascending : ∀ points,
    (qsort ketamaCompare points).Pairwise fun a b => ketamaCompare a b ≤ 0

/-- `floorf((weight / total) * 40.0 * numservers)` without rounding. -/
def exactShare (weight total : UInt64) (numservers : UInt32) : UInt32 :=
  UInt32.ofNat (40 * numservers.toNat * weight.toNat / total.toNat)

theorem ketamaCompare_le {a b : Mcs} :
    ketamaCompare a b ≤ 0 ↔ a.point ≤ b.point := by
  unfold ketamaCompare
  rw [UInt32.le_iff_toNat_le]
  split
  · rename_i below
    rw [UInt32.lt_iff_toNat_lt] at below
    omega
  · split
    · rename_i above
      rw [gt_iff_lt, UInt32.lt_iff_toNat_lt] at above
      omega
    · rename_i notAbove
      rw [gt_iff_lt, UInt32.lt_iff_toNat_lt] at notAbove
      omega

/-- The machine the router runs on, with a merge sort for `qsort`. -/
def Platform.standard : Platform where
  md5 := md5Digest
  share := exactShare
  qsort compare points := points.mergeSort fun a b => compare a b ≤ 0
  qsort_perm points := List.mergeSort_perm points _
  qsort_ascending points := by
    have sorted := @List.pairwise_mergeSort _
      (fun a b => decide (ketamaCompare a b ≤ 0)) ?_ ?_ points
    · exact sorted.imp of_decide_eq_true
    · intro a b c
      simp only [decide_eq_true_eq, ketamaCompare_le]
      exact UInt32.le_trans
    · intro a b
      simp only [Bool.or_eq_true, decide_eq_true_eq, ketamaCompare_le]
      exact UInt32.le_total _ _

def ketamaNew : Ketama :=
  { numpoints := 0
    numservers := 0
    maxservers := 0
    memory := 0
    continuum := none
    servers := none }

def initMaxServers : UInt32 := 1

def addrSize : Nat := 255

/-- `snprintf(info->addr, sizeof(info->addr), "%s:%d", addr, port)` -/
def serverAddr (addr : Bytes) (port : ℤ) : Bytes :=
  (cStr addr ++ 58 :: formatInt port).take (addrSize - 1)

/-- The array of `INIT_MAX_SERVERS` entries, allocated by the first call. -/
def Ketama.allocated (ketama : Ketama) : Ketama :=
  match ketama.servers with
  | none => { ketama with maxservers := initMaxServers, servers := some [] }
  | some _ => ketama

/-- The array with room doubled if it is full. -/
def Ketama.grown (ketama : Ketama) : Ketama :=
  if ketama.numservers ≥ ketama.maxservers then
    { ketama with maxservers := ketama.maxservers * 2 }
  else ketama

/-- It returns 0 whenever it returns.  Where doubling has wrapped to 0, nothing
is allocated for the entry. -/
def ketamaAddServer (ketama : Ketama) (addr : Bytes) (port : ℤ)
    (weight : UInt64) : Except Fault Ketama :=
  if ketama.numservers ≤ ketama.maxservers then
    let ketama := ketama.allocated.grown
    if ketama.numservers < ketama.maxservers then
      let info : ServerInfo := { addr := serverAddr addr port, memory := weight }
      return { ketama with
        servers := ketama.servers.map (· ++ [info])
        numservers := ketama.numservers + 1
        memory := ketama.memory + weight }
    else
      throw .outOfBounds
  else
    throw .assertion

/-- Four bytes of a digest, from `4 * place` on, as a point of the ring. -/
def digestPoint (digest : Fin 16 → UInt8) (place : Fin 4) : UInt32 :=
  (digest ⟨3 + place * 4, by omega⟩).toUInt32 <<< 24 |||
    (digest ⟨2 + place * 4, by omega⟩).toUInt32 <<< 16 |||
    (digest ⟨1 + place * 4, by omega⟩).toUInt32 <<< 8 |||
    (digest ⟨place * 4, by omega⟩).toUInt32

def ketamaHashi (platform : Platform) (key : Bytes) : UInt32 :=
  digestPoint (platform.md5 key) 0

/-- `snprintf(ss, sizeof(ss), "%s-%d", sinfo->addr, k)` -/
def pointText (addr : Bytes) (k : Nat) : Bytes :=
  (addr ++ 45 :: formatInt ((k : ℤ).bmod (2 ^ 32))).take (addrSize + 11 - 1)

/-- The points of one group of a server. -/
def groupPoints (platform : Platform) (addr : Bytes) (ordinal : Int32)
    (k : Nat) : List Mcs :=
  let digest := platform.md5 (pointText addr k)
  (List.finRange 4).map fun place =>
    { point := digestPoint digest place, ordinal := ordinal }

/-- The points of one server. -/
def serverPoints (platform : Platform) (addr : Bytes) (ordinal : Int32)
    (ks : UInt32) : List Mcs :=
  (List.range ks.toNat).flatMap (groupPoints platform addr ordinal)

/-- The points that the loops of `Ketama_create_continuum` write, one after the
other, for the servers from `ordinal` on. -/
def fillPoints (platform : Platform) (total : UInt64) (numservers : UInt32) :
    Int32 → List ServerInfo → List Mcs
  | _, [] => []
  | ordinal, sinfo :: rest =>
      serverPoints platform sinfo.addr ordinal
          (platform.share sinfo.memory total numservers) ++
        fillPoints platform total numservers (ordinal + 1) rest

/-- The continuum while it is written, and the index of the next point. -/
structure Filling where
  continuum : List Mcs
  cont : UInt32
  deriving DecidableEq, Repr

/-- `continuum[cont] = ...; cont++`, the continuum having room for so many
points.  An index that has wrapped around writes over an earlier point. -/
def writePoint (room : Nat) (filling : Filling) (entry : Mcs) :
    Except Fault Filling :=
  let cont := filling.cont.toNat
  if cont < room then
    return { continuum :=
               filling.continuum.take cont ++
                 entry :: filling.continuum.drop (cont + 1)
             cont := filling.cont + 1 }
  else
    throw .outOfBounds

/-- The continuum is allocated for `numservers * 160` points. -/
def ketamaCreateContinuum (platform : Platform) (ketama : Ketama) :
    Except Fault Ketama := do
  if ketama.numservers = 0 ∨ ketama.continuum ≠ none then
    return ketama
  else
    match ketama.servers with
    | none => throw .nullPointer
    | some servers =>
        let filling ←
          (fillPoints platform ketama.memory ketama.numservers 0
            servers).foldlM (writePoint (ketama.numservers.toNat * 160))
            { continuum := [], cont := 0 }
        let cont := filling.cont.toNat
        return { ketama with
          numpoints := filling.cont.toInt32
          continuum := some
            (platform.qsort ketamaCompare (filling.continuum.take cont) ++
              filling.continuum.drop cont) }

/-- `mcsarr[index]`, one of the entries written. -/
def mcsAt (mcsarr : List Mcs) (index : Int32) : Except Fault Mcs :=
  if index < 0 then
    throw .outOfBounds
  else
    match mcsarr[index.toNatClampNeg]? with
    | none => throw .outOfBounds
    | some entry => return entry

/-- `midp == 0 ? 0 : mcsarr[midp-1].point` -/
def pointBefore (mcsarr : List Mcs) (midp : Int32) : Except Fault UInt32 :=
  if midp = 0 then return 0
  else Mcs.point <$> mcsAt mcsarr (midp - 1)

/-- The loop of `Ketama_get_server_ordinal`. -/
def searchLoop (ketama : Ketama) (mcsarr : List Mcs) (h : UInt32) :
    Nat → Int32 → Int32 → Except Fault Int32
  | 0, _, _ => throw .diverges
  | fuel + 1, lowp, highp => do
      let midp := (lowp + highp) / 2
      if midp = ketama.numpoints then
        return (← mcsAt mcsarr 0).ordinal
      else
        let midval := (← mcsAt mcsarr midp).point
        let midval1 ← pointBefore mcsarr midp
        if h ≤ midval ∧ h > midval1 then
          return (← mcsAt mcsarr midp).ordinal
        else
          let lowp := if midval < h then midp + 1 else lowp
          let highp := if midval < h then highp else midp - 1
          if lowp > highp then
            return (← mcsAt mcsarr 0).ordinal
          else
            searchLoop ketama mcsarr h fuel lowp highp

def ketamaGetServerOrdinal (platform : Platform) (ketama : Ketama)
    (key : Bytes) : Except Fault Int32 :=
  match ketama.continuum with
  | none => return -1
  | some mcsarr =>
      searchLoop ketama mcsarr (ketamaHashi platform key)
        (ketama.numpoints.toNatClampNeg + 2) 0 ketama.numpoints

def ketamaGetServerAddress (ketama : Ketama) (ordinal : Int32) : Bytes :=
  match ketama.servers with
  | none => []
  | some servers =>
      if ordinal < 0 ∨ ordinal.toUInt32 ≥ ketama.numservers then []
      else
        match servers[ordinal.toNatClampNeg]? with
        | none => []
        | some info => info.addr

def ketamaGetServerNum (ketama : Ketama) : UInt32 :=
  ketama.numservers

end KetamaRouter
