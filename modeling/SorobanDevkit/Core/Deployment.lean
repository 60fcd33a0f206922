import Mathlib.Logic.Function.Basic
import SorobanDevkit.Library.Hex
import SorobanDevkit.Library.Strings

/-!
# Deployment records

`sdkt-core/src/deployment.rs` keeps the contracts that `sdkt project deploy` created in a file: a
map from network keys to maps from aliases to records. The two maps are only looked up and inserted
into, and are given by their lookups. The file is given by what is parsed from it; it is replaced as
a whole.
-/

namespace SorobanDevkit.Core

open Strings

/-- `DeploymentRecord`. -/
structure DeploymentRecord where
  contractId : String
  wasmHash : String
  network : String
  timestamp : UInt64
  salt : Option String
  deriving DecidableEq

/-- `DeploymentRecordFile`. -/
structure DeploymentRecordFile where
  profiles : String → Option (String → Option DeploymentRecord)

namespace DeploymentRecordFile

/-- `DeploymentRecordFile::default`. -/
def default : DeploymentRecordFile := ⟨fun _ => none⟩

/-- `records_for`. -/
def recordsFor (file : DeploymentRecordFile) (network : String) :
    Option (String → Option DeploymentRecord) := file.profiles network

/-- `record_for`. -/
def recordFor (file : DeploymentRecordFile) (network aliasName : String) :
    Option DeploymentRecord :=
  (file.recordsFor network).bind fun records => records aliasName

/-- `set_record`. -/
def setRecord (file : DeploymentRecordFile) (network aliasName : String)
    (record : DeploymentRecord) : DeploymentRecordFile :=
  let records := (file.profiles network).getD fun _ => none
  let inserted := Function.update records aliasName (some record)
  ⟨Function.update file.profiles network (some inserted)⟩

@[simp] theorem recordFor_default (network aliasName : String) :
    default.recordFor network aliasName = none := rfl

/-- **A record replaces the one of its alias and network, and no other.** -/
theorem recordFor_setRecord (file : DeploymentRecordFile) (network aliasName : String)
    (record : DeploymentRecord) (network' aliasName' : String) :
    (file.setRecord network aliasName record).recordFor network' aliasName' =
      if network' = network ∧ aliasName' = aliasName then some record
      else file.recordFor network' aliasName' := by
  by_cases hnetwork : network' = network
  · subst hnetwork
    by_cases halias : aliasName' = aliasName
    · subst halias
      simp [setRecord, recordFor, recordsFor]
    · cases hrecords : file.profiles network' <;>
        simp [setRecord, recordFor, recordsFor, halias, hrecords]
  · simp [setRecord, recordFor, recordsFor, hnetwork]

end DeploymentRecordFile

/-- `DEPLOYMENT_RECORD_FILE`. -/
def deploymentRecordFile : String := ".sdkt-deployments.json"

/-- What is at the path of the record file. -/
inductive RecordPath
  | missing
  | blank
  | unreadable (error : String)
  | corrupt (error : String)
  | holds (file : DeploymentRecordFile)

/-- `DeploymentRecordFile::read`. -/
def RecordPath.read : RecordPath → Except String DeploymentRecordFile
  | missing => .ok .default
  | blank => .ok .default
  | unreadable e => .error ("Failed to read " ++ deploymentRecordFile ++ ": " ++ e)
  | corrupt e => .error ("Failed to parse " ++ deploymentRecordFile ++ ": " ++ e)
  | holds file => .ok file

/-! ### Network keys -/

/-- `TESTNET_PASSPHRASE`. -/
def testnetPassphrase : String := "Test SDF Network ; September 2015"

/-- `MAINNET_PASSPHRASE`. -/
def mainnetPassphrase : String := "Public Global Stellar Network ; September 2015"

/-- `FUTURENET_PASSPHRASE`. -/
def futurenetPassphrase : String := "Test SDF Future Network ; October 2022"

section

variable (sha256 : List UInt8 → Vector UInt8 32)

/-- The key of a network other than the known ones. -/
def customKey (passphrase : String) : String :=
  "custom-" ++ Hex.encode ((sha256 passphrase.toUTF8.data.toList).toList.take 8)

/-- `network_key`. -/
def networkKey (networkProfile : Option String) (passphrase : String) : String :=
  let derived :=
    if passphrase = testnetPassphrase then "testnet"
    else if passphrase = mainnetPassphrase then "mainnet"
    else if passphrase = futurenetPassphrase then "futurenet"
    else customKey sha256 passphrase
  match networkProfile with
  | some profile => if trim profile ≠ "" then profile else derived
  | none => derived

end

end SorobanDevkit.Core
