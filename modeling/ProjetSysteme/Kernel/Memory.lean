/- Kernel/Memory
   source: kernel/phy_mem_allocator.c, kernel/page.c, kernel/boot/early_mm.c
   digest: The free physical pages, the pages of each pid and the two-level page tables. -/

import ProjetSysteme.Library.PriorityList
import Mathlib.Algebra.Ring.Int.Defs

set_option autoImplicit false
set_option relaxedAutoImplicit false

namespace ProjetSysteme.Kernel

open Library.PriorityList (place)

abbrev Mot := BitVec 32

/-- What the modelled code takes from outside: the registered programs, the
allocator of `shared/malloc.c`, the contents of memory nobody initialised, and
the words that lie where a search or an index runs past its structure. -/
structure Env where
  /-- `programmes`: `none` when the name is not registered, else its function pointer. -/
  programmes : String → Option Mot
  /-- Result of the n-th call of `memalign`; `none` is NULL. -/
  memalign : Nat → Option Mot
  /-- Whether the n-th call of `malloc` succeeds. -/
  malloc : Nat → Bool
  /-- Contents of the `priorite` field of the n-th block of `malloc`. -/
  indetermine : Nat → Int
  /-- The word read as `pid` when the head of `pages_allouees` is taken for an element. -/
  pidTete : Int
  /-- Entries of the kernel page directory `pgdir`. -/
  pgdir : Nat → Mot
  /-- Whether the word read as `tab_file_message[NBQUEUE].statut` is non-zero. -/
  statutApresTable : Bool

inductive Faute
  /-- a link assertion of `queue_add` or `queue_del` -/
  | assertionMaillon
  /-- any other `assert`, which calls `panic` -/
  | panique
  /-- a null link or a null pointer is followed -/
  | maillonNul
  /-- the head of a list is used as one of its elements -/
  | teteDeListe
  /-- an array is indexed outside its bounds -/
  | horsTable
  /-- a recursion without end -/
  | recursion
  /-- a loop without end -/
  | boucle
  /-- a process runs again after the call that ended it -/
  | apresTerminaison
  deriving DecidableEq, Repr

inductive Permission
  | read
  | write
  deriving DecidableEq, Repr

structure PageVide where
  priorite : Int
  adr : Mot

structure Adresse where
  priorite : Int
  adressePhy : Mot
  adresseVirt : Mot
  perm : Permission

/-- `page_allouee`: the pages attached to a pid.  `bloc` is the `malloc` call
that produced the element, and stands for its address. -/
structure PageAllouee where
  bloc : Nat
  priorite : Int
  perm : Permission
  pid : Int
  adresses : List Adresse

structure Memoire where
  /-- 32-bit words of the page directories and page tables, by address. -/
  mots : Mot → Mot
  pagesVides : List PageVide
  pagesAllouees : List PageAllouee
  nbMalloc : Nat
  nbMemalign : Nat
  /-- Arguments of the calls of `free` made by `free_page`, latest first. -/
  liberees : List Mot

def kBaseVirtAdr : Mot := 0x40000000
def k4KiB : Nat := 0x1000
def kMskAdd : Mot := 0xFFFFF000
def kMskBitP : Mot := 0x00000001
def kMskBitR : Mot := 0x00000002
def kMskBitU : Mot := 0x00000004

variable (env : Env)

/-- The loop of `create_list_pages_vides` for the remaining `n` pages. -/
def creerPagesVides : Nat → Memoire → Except Faute Memoire
  | 0, m => .ok m
  | n + 1, m =>
    if env.malloc m.nbMalloc then
      match env.memalign m.nbMemalign with
      | none => .error .panique
      | some adr => creerPagesVides n
          { m with
            nbMalloc := m.nbMalloc + 1
            nbMemalign := m.nbMemalign + 1
            pagesVides := place PageVide.priorite ⟨0, adr⟩ m.pagesVides }
    else .error .maillonNul

def createListPagesVides (m : Memoire) : Except Faute Memoire := creerPagesVides env 1000 m

/-- Result of a search that may stop on the list head and use it as an element. -/
inductive Recherche (α : Type)
  | vers (a : α)
  | tete
  | aucun

/-- The search by pid shared by the functions on `pages_allouees`. -/
def cherchePid (m : Memoire) (pid : Int) : Recherche PageAllouee :=
  match m.pagesAllouees.find? (fun page => page.pid = pid) with
  | some page => .vers page
  | none => if env.pidTete = pid then .tete else .aucun

/-- The loop of `desalloue_pages_process`, over the addresses in order of removal. -/
def rendrePages : List Adresse → Memoire → Except Faute Memoire
  | [], m => .ok m
  | ad :: reste, m =>
    if env.malloc m.nbMalloc then
      rendrePages reste
        { m with
          nbMalloc := m.nbMalloc + 1
          pagesVides :=
            place PageVide.priorite ⟨env.indetermine m.nbMalloc, ad.adressePhy⟩ m.pagesVides }
    else .error .maillonNul

def desallouePagesProcess (m : Memoire) (pid : Int) : Except Faute Memoire :=
  match cherchePid env m pid with
  | .aucun => .ok m
  | .tete => .error .teteDeListe
  | .vers page => do
    let m ← rendrePages env page.adresses.reverse m
    .ok { m with pagesAllouees := m.pagesAllouees.eraseP (fun p => p.bloc = page.bloc) }

/-- The loop of `alloue_pages_process` for the remaining `n` pages, at index `i`. -/
def allouerBoucle (bloc : Nat) (pid : Int) (perm : Permission) :
    Nat → Nat → Memoire → Except Faute Memoire
  | 0, _, m => .ok m
  | n + 1, i, m =>
    match m.pagesVides.getLast? with
    | none => desallouePagesProcess env m pid
    | some page =>
      if env.malloc m.nbMalloc then
        let ad : Adresse :=
          { priorite := env.indetermine m.nbMalloc
            adressePhy := page.adr
            adresseVirt := kBaseVirtAdr + BitVec.ofNat 32 (i * k4KiB)
            perm := perm }
        allouerBoucle bloc pid perm n (i + 1)
          { m with
            nbMalloc := m.nbMalloc + 1
            pagesVides := m.pagesVides.dropLast
            pagesAllouees := m.pagesAllouees.map fun p =>
              if p.bloc = bloc then { p with adresses := place Adresse.priorite ad p.adresses }
              else p }
      else .error .maillonNul

def allouePagesProcess (m : Memoire) (pid : Int) (nbPages : Nat) (perm : Permission) :
    Except Faute Memoire :=
  if env.malloc m.nbMalloc then
    let page : PageAllouee :=
      { bloc := m.nbMalloc, priorite := env.indetermine m.nbMalloc, perm, pid, adresses := [] }
    allouerBoucle env m.nbMalloc pid perm nbPages 0
      { m with
        nbMalloc := m.nbMalloc + 1
        pagesAllouees := place PageAllouee.priorite page m.pagesAllouees }
  else .ok { m with nbMalloc := m.nbMalloc + 1 }

def getNbPages (m : Memoire) (pid : Int) : Except Faute Int :=
  match cherchePid env m pid with
  | .vers page => .ok page.adresses.length
  | .tete => .error .teteDeListe
  | .aucun => .ok (-1)

/-- An index past the end yields the head of the list of addresses. -/
def getAdr (m : Memoire) (pid : Int) (noPage : Nat) : Except Faute (Recherche Adresse) :=
  match cherchePid env m pid with
  | .vers page =>
    match page.adresses[noPage]? with
    | some adr => .ok (.vers adr)
    | none => .ok .tete
  | .tete => .error .teteDeListe
  | .aucun => .ok .aucun

def isBitNTrue (n : Int) (adr : Mot) : Bool :=
  if n < 0 ∨ n > 31 then false else adr &&& ((1 : Mot) <<< n.toNat) != 0

def setBitN (n : Int) (boo : Bool) (adr : Mot) : Mot :=
  if n < 0 ∨ n > 31 then adr
  else if boo then adr ||| ((1 : Mot) <<< n.toNat)
  else adr &&& ~~~((1 : Mot) <<< n.toNat)

/-- The loop of `get_n_bits` for the remaining `n` bits, from bit `i` and weight `cpt`. -/
def getNBitsBoucle (adr : Mot) : Nat → Int → Nat → Int → Int
  | 0, _, _, num => num
  | n + 1, i, cpt, num =>
    getNBitsBoucle adr n (i + 1) (cpt + 1)
      (if isBitNTrue i adr then num + ((1 <<< cpt : Nat) : Int) else num)

def getNBits (nFort nFaible : Int) (adr : Mot) : Int :=
  if nFort - nFaible < 0 ∨ nFort > 31 ∨ nFaible < 0 then 0
  else getNBitsBoucle adr (nFort - nFaible + 1).toNat nFaible 0 0

/-- The result of an operation on signed `int`; none when it overflows. -/
def entier? (x : Int) : Option Int := if -2 ^ 31 ≤ x ∧ x < 2 ^ 31 then some x else none

def ajouterBit (adr : Mot) (i : Int) (cpt : Nat) (num : Int) : Option Int :=
  if isBitNTrue i adr then (entier? ((1 <<< cpt : Nat) : Int)).bind fun poids => entier? (num + poids)
  else some num

/-- The loop of `get_n_bits` as it is written, on signed `int`. -/
def getNBitsVerifie (adr : Mot) (nFort : Int) : Nat → Int → Nat → Int → Option Int
  | 0, _, _, _ => none
  | tours + 1, i, cpt, num =>
    if i > nFort then some num
    else do
      let num ← ajouterBit adr i cpt num
      let _ ← entier? ((cpt + 1 : Nat) : Int)
      let i ← entier? (i + 1)
      getNBitsVerifie adr nFort tours i (cpt + 1) num

/-- Address of the word of index `i` of the table at `base`. -/
def caseTable (base : Mot) (i : Nat) : Mot := base + BitVec.ofNat 32 (4 * i)

/-- The 1024 stores of `f i` at index `i` of the table at `base`. -/
def remplir (mots : Mot → Mot) (base : Mot) (f : Nat → Mot) : Mot → Mot := fun a =>
  let d := (a - base).toNat
  if d % 4 = 0 ∧ d / 4 < 1024 then f (d / 4) else mots a

def ecrire (mots : Mot → Mot) (a v : Mot) : Mot → Mot := fun b => if b = a then v else mots b

def createPageDirectory (m : Memoire) : Option Mot × Memoire :=
  match env.memalign m.nbMemalign with
  | none => (none, { m with nbMemalign := m.nbMemalign + 1 })
  | some pd =>
    (some pd,
      { m with
        nbMemalign := m.nbMemalign + 1
        mots := remplir m.mots pd fun ii => if ii < 64 then env.pgdir ii else 0 })

/-- Returns 0 and stores the new table in `casePageDirectory`, or returns -1. -/
def createPageTable (m : Memoire) (casePageDirectory : Mot) : Int × Memoire :=
  match env.memalign m.nbMemalign with
  | none => (-1, { m with nbMemalign := m.nbMemalign + 1 })
  | some pt =>
    let mots := remplir m.mots pt fun _ => 0
    (0,
      { m with
        nbMemalign := m.nbMemalign + 1
        mots := ecrire mots casePageDirectory (setBitN 0 true ((pt &&& kMskAdd) ||| kMskBitU)) })

def putAddressReel (m : Memoire) (adrReel adrVirt : Mot) (perm : Permission)
    (pageDirectory : Mot) : Except Faute (Int × Memoire) :=
  let offset := getNBits 31 22 adrVirt
  if offset > 63 then
    let casePd := caseTable pageDirectory offset.toNat
    let (r, m) := if m.mots casePd &&& kMskBitP = 0 then createPageTable env m casePd else (0, m)
    if r ≠ 0 then .ok (-1, m)
    else
      let mots := if perm = .write then ecrire m.mots casePd (m.mots casePd ||| kMskBitR) else m.mots
      let mots := ecrire mots casePd (mots casePd ||| kMskBitU)
      let casePt := caseTable (mots casePd &&& kMskAdd) (getNBits 21 12 adrVirt).toNat
      let v := (adrReel &&& kMskAdd) ||| kMskBitU |||
        (if perm = .read then kMskBitP else kMskBitR ||| kMskBitP)
      .ok (0, { m with mots := ecrire mots casePt v })
  else .error .panique

/-- The word at an address that need not be aligned, its low byte first. -/
def lireMot (mots : Mot → Mot) (a : Mot) : Mot :=
  let r := a.toNat % 4
  let base := a - BitVec.ofNat 32 r
  if r = 0 then mots a
  else (mots base >>> (8 * r)) ||| (mots (base + 4) <<< (32 - 8 * r))

/-- The directory entry is used as the address of the page table, with its flags. -/
def getAddressReel (m : Memoire) (adrVirt pageDirectory : Mot) : Mot :=
  let casePd := caseTable pageDirectory (getNBits 31 22 adrVirt).toNat
  lireMot m.mots (caseTable (m.mots casePd) (getNBits 21 12 adrVirt).toNat)

/-- Entry `i` of the directory that `early_mm_fill_pgdir` fills from the tables `pagetab`. -/
def earlyMmFillPgdir (pagetab : Mot) (count i : Nat) : Mot :=
  if i < count then (pagetab + BitVec.ofNat 32 (i * 0x1000)) ||| 3 else 0

/-- `free_page` counts from 64 to 1023 but reads the directory from its first entry. -/
def freePage (m : Memoire) (pageDirectory : Mot) : Memoire :=
  let tables := (List.range 960).filterMap fun j =>
    let v := m.mots (caseTable pageDirectory j)
    if v &&& kMskBitP ≠ 0 then some (v &&& kMskAdd) else none
  { m with liberees := pageDirectory :: (tables.reverse ++ m.liberees) }

end ProjetSysteme.Kernel
