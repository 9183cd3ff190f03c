import Clearance.Ids
import Clearance.States
import Clearance.Wire.Decoder

/-!
# Clearance — Wire — Names

The wire forms of identities and of the closed vocabularies: each is its text.
-/

namespace Clearance

open Decoder

def NodeId.decode : Decoder NodeId := fun src d => (string src d).map NodeId.mk

def InstanceId.decode : Decoder InstanceId := fun src d => (string src d).map InstanceId.mk

def TemplateId.decode : Decoder TemplateId := fun src d => (string src d).map TemplateId.mk

def TaskKind.decode : Decoder TaskKind := oneOf ofText? (all.map text)

def Lifecycle.decode : Decoder Lifecycle := oneOf ofText? (all.map text)

def NodeState.decode : Decoder NodeState := oneOf ofText? (all.map text)

def InstanceKind.decode : Decoder InstanceKind := oneOf ofText? (all.map text)

def InstanceStatus.decode : Decoder InstanceStatus := oneOf ofText? (all.map text)

def UnlockMode.decode : Decoder UnlockMode := oneOf ofText? (modes.map text)

end Clearance
