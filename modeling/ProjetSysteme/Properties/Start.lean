/- Properties/Start
   source: kernel/process.c, kernel/process.h, kernel/horloge.c, kernel/phy_mem_allocator.c
   digest: What a start that cannot succeed leaves behind. -/

import ProjetSysteme.Invariant.Reachable

set_option autoImplicit false
set_option relaxedAutoImplicit false

namespace ProjetSysteme.Properties

open Kernel Invariant

/-- The process table, with the lists of children, the ready queue and the physical pages
are as they were. -/
structure SansEffet (k k' : Noyau) : Prop where
  table : ∀ i, k'.table i = { k.table i with suite := (k'.table i).suite }
  activables : k'.activables = k.activables
  pagesVides : k'.memoire.pagesVides = k.memoire.pagesVides
  pagesAllouees : k'.memoire.pagesAllouees = k.memoire.pagesAllouees

theorem SansEffet.etat {k k' : Noyau} (sans : SansEffet k k') (i : Indice) :
    (k'.table i).etat = (k.table i).etat := by
  rw [sans.table]

end ProjetSysteme.Properties
