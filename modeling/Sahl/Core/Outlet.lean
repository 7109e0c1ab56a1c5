import Mathlib.Tactic
import Sahl.Lib.Text
import Sahl.Core.Staff

/-! # Outlet configuration

    How an outlet trades. A configuration is a full replacement, validated when it is set. -/

namespace Sahl

/-! ## Section 1: Settings -/

inductive OutletError where
  | blank (field : String)
  | registrationRequired (regime : String)
  deriving DecidableEq

/-- What kind of shop this outlet is. -/
inductive Profile where
  | retail
  | cafe
  | grocery
  deriving DecidableEq

/-- Which jurisdiction's rules this outlet trades under. -/
inductive FiscalRegime where
  | none
  | bdMushak
  | zatca
  deriving DecidableEq

namespace FiscalRegime

def label : FiscalRegime → String
  | none => "none"
  | bdMushak => "bd_mushak"
  | zatca => "zatca"

/-- Whether this regime needs a tax registration number before it can issue anything. -/
def needsRegistration : FiscalRegime → Bool
  | bdMushak | zatca => true
  | none => false

end FiscalRegime

/-- What a scale puts into its labels. -/
inductive Embedded where
  | weight
  | price
  deriving DecidableEq

/-- How one outlet's scale lays out its labels. -/
structure ScaleFormat where
  scalePrefix : String
  itemDigits : UInt8
  embedded : Embedded
  valueDigits : UInt8
  valueDecimals : UInt8
  fillerDigits : UInt8
  deriving DecidableEq

/-- The settings an outlet is configured with. -/
structure OutletSettings where
  name : String
  profile : Profile
  currency : Currency
  timezone : String
  regime : FiscalRegime
  taxRegistration : Option String
  address : String
  scale : Option ScaleFormat
  approval : Option ApprovalPolicy
  deriving DecidableEq

/-! ## Section 2: The configuration -/

/-- How an outlet trades. -/
structure OutletConfig where
  outletId : Uuid
  name : String
  profile : Profile
  currency : Currency
  timezone : String
  regime : FiscalRegime
  taxRegistration : Option String
  address : String
  scale : Option ScaleFormat
  approval : ApprovalPolicy
  configuredAt : Timestamp
  deriving DecidableEq

/-- Check that the configuration is one the outlet can trade under. -/
def OutletConfig.validate (config : OutletConfig) : Except OutletError Unit :=
  if Text.isBlank config.name then .error (.blank "name")
  else if Text.isBlank config.timezone then .error (.blank "timezone")
  else if Text.isBlank config.address then .error (.blank "address")
  else if config.regime.needsRegistration ∧ config.taxRegistration.all Text.isBlank then
    .error (.registrationRequired config.regime.label)
  else .ok ()

/-- Everything that happens to an outlet's configuration. -/
inductive OutletEvent where
  | configured (outletId : Uuid) (settings : OutletSettings) (at' : Timestamp)
      (configuredBy : Uuid)
  deriving DecidableEq

namespace OutletEvent

def kind : OutletEvent → String
  | configured .. => "outlet.configured"

/-- The configuration this event describes. -/
def toConfig : OutletEvent → Except OutletError OutletConfig
  | configured outletId settings at' _ => do
    let config : OutletConfig :=
      { outletId, name := settings.name, profile := settings.profile,
        currency := settings.currency, timezone := settings.timezone, regime := settings.regime,
        taxRegistration := settings.taxRegistration, address := settings.address,
        scale := settings.scale
        approval := settings.approval.getD (.strictest settings.currency)
        configuredAt := at' }
    config.validate
    .ok config

end OutletEvent

end Sahl
