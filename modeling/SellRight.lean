import SellRight.CreditServiceSafety
import SellRight.CreditFundingRuns
import SellRight.EffectsOrder
import SellRight.EffectsBudget
import SellRight.RefundFingerprint
import SellRight.LeaderFencing
import SellRight.CartSafety
import SellRight.OrderStatusSql
import SellRight.LicenseGeneration
import SellRight.LicenseLeaseReplay
import SellRight.LicenseStoreKitRestore
import SellRight.LicensePoolCap
import SellRight.StockAllocation
import SellRight.LockSetSafety
import SellRight.CartOrderSafety
import SellRight.PricingGraphEnds
import SellRight.EditRefundOnce
import SellRight.OutboxFencing
import SellRight.ManifestPurges
import SellRight.StaffAuthority
import SellRight.RestockSafety
import SellRight.SezzleSafety
import SellRight.StripeIntentSafety
import SellRight.AffiliatePayoutSafety
import SellRight.AccountErasureSafety
import SellRight.CreditImportSafety
import SellRight.DeployRollbackSafety
import SellRight.GiftCardSafety
import SellRight.AdminHubSafety
import SellRight.AdminHandoffSafety
import SellRight.VerificationEligibility
import SellRight.GatewayPaymentSafety
import SellRight.LoyaltyConvergence
import SellRight.PromotionFunding
import SellRight.ShippingConsistency
import SellRight.LoyaltyRedemption
import SellRight.LineQuantity
import SellRight.OrderNumberFreshness
import SellRight.OrderCodeLookups
import SellRight.OrderEditRefunds
import SellRight.LoyaltyExpiry
import SellRight.CatalogScope
import SellRight.TrackingFiles
import SellRight.SezzleSession
import SellRight.CustomerSessions
import SellRight.SignedProration
import SellRight.RetainedUnits
import SellRight.RollbackClosure
import SellRight.JobAdmission
import SellRight.SmartCollections
