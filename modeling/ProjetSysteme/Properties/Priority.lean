/- Properties/Priority
   source: kernel/process.c, kernel/file.c
   digest: Strict priority scheduling, and where psend breaks it. -/

import ProjetSysteme.Invariant.Reachable

set_option autoImplicit false
set_option relaxedAutoImplicit false

namespace ProjetSysteme.Properties

open Kernel Invariant

instance (k : Noyau) (e : Evenement) : Decidable (PrioriteLibre k e) := by
  induction e using Evenement.casesOn with
  | appel a => induction a using Appel.casesOn <;> (unfold PrioriteLibre; infer_instance)
  | reprise =>
      have (a : Indice) : Decidable (match (k.table a).suite with
          | .psendAttente f _ => EnvoiLibre k a f
          | _ => True) := by
        induction (k.table a).suite using Suite.casesOn <;> infer_instance
      unfold PrioriteLibre
      infer_instance
  | _ => unfold PrioriteLibre; infer_instance

/-- The primitives that strict priority is about. -/
def sansTouche (_ : Noyau) : Evenement → Bool
  | .touche _ => false
  | _ => true

end ProjetSysteme.Properties
