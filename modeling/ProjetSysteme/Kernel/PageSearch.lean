/- Kernel/PageSearch
   source: kernel/phy_mem_allocator.c, shared/queue.h
   digest: The searches of pages, with what their loop variables are when nothing is found. -/

import ProjetSysteme.Kernel.Memory

set_option autoImplicit false
set_option relaxedAutoImplicit false

namespace ProjetSysteme.Kernel

/-- The variable of `queue_for_each` after the loop: the element at which the loop was
left, with its rank, or the head of the list taken for an element. -/
inductive Curseur (α : Type)
  | element (rang : Nat) (a : α)
  | tete

/-- `queue_for_each` over a body that leaves the loop when `arret` holds. -/
def queueForEach {α : Type} (arret : Nat → α → Bool) : List α → Nat → Curseur α
  | [], _ => .tete
  | a :: reste, rang => if arret rang a then .element rang a else queueForEach arret reste (rang + 1)

/-- The result of a call, and whether a field was read through the head of a list. -/
structure Observation (α : Type) where
  resultat : Except Faute α
  teteLue : Bool

def Observation.puis {α β : Type} (o : Observation α) (f : α → Observation β) : Observation β :=
  match o.resultat with
  | .ok a => { resultat := (f a).resultat, teteLue := o.teteLue || (f a).teteLue }
  | .error faute => { resultat := .error faute, teteLue := o.teteLue }

/-- The words at the place of the fields of an `adresse` that is the head of a list. -/
structure Voisinage where
  adressePhy : Mot
  adresseVirt : Mot

inductive PointeurAdresse
  | nul
  | element (rang : Nat) (adr : Adresse)
  | tete

variable (env : Env)

/-- The loop on `pages_allouees`, then the test `page->pid == pid`.  When the word read
as `pid` in the head is the pid, the call goes on with a list that does not exist. -/
def trouverPage (m : Memoire) (pid : Int) : Observation (Option PageAllouee) :=
  match queueForEach (fun _ page => page.pid = pid) m.pagesAllouees 0 with
  | .element _ page => { resultat := .ok (if page.pid = pid then some page else none), teteLue := false }
  | .tete => { resultat := if env.pidTete = pid then .error .teteDeListe else .ok none, teteLue := true }

/-- The loop on the addresses of a page, left at the index `noPage`. -/
def trouverAdresse (page : PageAllouee) (noPage : Int) : Curseur Adresse :=
  queueForEach (fun indexPage _ => (indexPage : Int) = noPage) page.adresses 0

def observerNbPages (m : Memoire) (pid : Int) : Observation Int :=
  (trouverPage env m pid).puis fun
    | some page => { resultat := .ok page.adresses.length, teteLue := false }
    | none => { resultat := .ok (-1), teteLue := false }

def observerAdr (m : Memoire) (pid noPage : Int) : Observation PointeurAdresse :=
  (trouverPage env m pid).puis fun
    | some page =>
      match trouverAdresse page noPage with
      | .element rang adr => { resultat := .ok (.element rang adr), teteLue := false }
      | .tete => { resultat := .ok .tete, teteLue := false }
    | none => { resultat := .ok .nul, teteLue := false }

/-- `get_adr_phy` and `get_adr_virt`, which differ in the field that they return. -/
def observerChamp (m : Memoire) (pid noPage : Int) (champ : Adresse → Mot) (dansTete : Mot) : Observation Mot :=
  (trouverPage env m pid).puis fun
    | some page =>
      match trouverAdresse page noPage with
      | .element _ adr => { resultat := .ok (champ adr), teteLue := false }
      | .tete => { resultat := .ok dansTete, teteLue := true }
    | none => { resultat := .ok 0, teteLue := false }

def observerAdrPhy (v : Voisinage) (m : Memoire) (pid noPage : Int) : Observation Mot :=
  observerChamp env m pid noPage Adresse.adressePhy v.adressePhy

def observerAdrVirt (v : Voisinage) (m : Memoire) (pid noPage : Int) : Observation Mot :=
  observerChamp env m pid noPage Adresse.adresseVirt v.adresseVirt

def observerDesallocation (m : Memoire) (pid : Int) : Observation Memoire :=
  (trouverPage env m pid).puis fun
    | some page =>
      { resultat := do
          let m ← rendrePages env page.adresses.reverse m
          .ok { m with pagesAllouees := m.pagesAllouees.eraseP (fun p => p.bloc = page.bloc) }
        teteLue := false }
    | none => { resultat := .ok m, teteLue := false }

end ProjetSysteme.Kernel
